import MipsMemory.Proofs.Assembly.Steps

/-!
What placement depends on. Of a statement only its shape counts: which directive it has, how many
numbers or bytes of text follow, and the operands that are counts themselves. Main statement: two
units of the same shape that are laid out fill all areas alike, and bind the labels of statements at
the same index to the same allocations, whatever their values and names.
-/

namespace MipsMemory

open Allocator (Operation)

namespace Directive

/-- The operands agree in what a directive places by. -/
def SameShape (d : Directive) (xs ys : List Operand) : Prop :=
  match d.role with
  | .emit _ (.numeric _) => xs.length = ys.length
  | .emit _ (.text _) => xs.length = ys.length ∧ textBytes xs = textBytes ys
  | .emit _ .space | .align => xs = ys
  | .declare .externs => xs[1]? = ys[1]?
  | .select _ | .declare .global | .declare .equate | .macroBegin | .macroEnd | .includeFile
  | .ignored => True

/-- The request that operands lead to if they are accepted. -/
def asked (d : Directive) (operands : List Operand) : Option Operation :=
  match d.role with
  | .select s => some (.select s)
  | .align =>
    match operands with
    | [.int e] => some (.align e.toNat)
    | _ => none
  | .emit width (.numeric _) => some (.emit width operands.length)
  | .emit width (.text terminated) =>
    some (.emit width (textBytes operands + if terminated then operands.length else 0))
  | .emit _ .space =>
    match operands with
    | [.int n] => some (.reserve (UInt32.ofNat n.toNat))
    | _ => none
  | .declare .externs =>
    match (operands[1]? : Option Operand) with
    | some (.int n) => some (.reserveExtern (UInt32.ofNat n.toNat))
    | _ => none
  | .declare .global | .declare .equate | .macroBegin | .macroEnd | .includeFile | .ignored => none

variable {d : Directive} {xs ys : List Operand} {r r' : Option Operation}

theorem Asks.eq_asked (h : d.Asks xs r) : r = d.asked xs := by
  cases h with
  | select s role => simp [asked, role]
  | align role e => simp [asked, role]
  | numeric width kind role => simp [asked, role]
  | text width terminated role => simp [asked, role]
  | space width role bytes => simp [asked, role]
  | externs role name bytes => simp [asked, role]
  | inert h =>
    simp only [IsInert, List.mem_cons, List.not_mem_nil, or_false] at h
    rcases h with h | h | h | h | h | h <;> simp [asked, h]

theorem SameShape.asked_eq (h : d.SameShape xs ys) : d.asked xs = d.asked ys := by
  unfold SameShape at h
  unfold asked
  cases hrole : d.role with
  | select => rfl
  | align =>
    rw [hrole] at h
    rw [h]
  | emit width payload =>
    rw [hrole] at h
    cases payload with
    | numeric => simp only [h]
    | text => simp only [h.1, h.2]
    | space => rw [h]
  | declare symbol =>
    rw [hrole] at h
    cases symbol with
    | externs => simp only [h]
    | global | equate => rfl
  | macroBegin | macroEnd | includeFile | ignored => rfl

end Directive

namespace Assembly

/-- The statements have the same directive, and operands of the same shape. -/
def SameShape (s t : Statement) : Prop :=
  ∃ d, Directive.lookup s.directive = .ok d ∧ Directive.lookup t.directive = .ok d ∧
    d.SameShape s.operands t.operands

/-- Laying out the statement at an index, after those before it, binds the label to an allocation:
that is the last binding it adds to a unit, whose table then has the label stand for it. -/
def LabelBinds (m : MemoryMap) (statements : List Statement) (u : Assembled) (index : Nat)
    (label : String) (item : Allocation) : Prop :=
  ∃ before upTo others later,
    layout m (statements.take index) = .ok before ∧
    layout m (statements.take (index + 1)) = .ok upTo ∧
    upTo.bindings = before.bindings ++ (others ++ [⟨label, item⟩]) ∧
    upTo.table.get? label = some item ∧ u.bindings = upTo.bindings ++ later

variable {m : MemoryMap} {xs ys : List Statement} {index : Nat} {a b c : Allocator}
  {bindings bindings' : List Binding}

/-- What a step comes to: what it reserves and where it ends. -/
def Step.result (p : Step) : List Allocation × Allocator := (p.items, p.after)

/-- Statements of the same shape that begin alike come to the same. -/
theorem Step.result_eq_of_sameShape {p q : Step} (hbefore : p.before = q.before)
    (h : SameShape p.statement q.statement) : p.result = q.result := by
  obtain ⟨d, hp, hq, hshape⟩ := h
  obtain rfl : p.directive = d := Except.ok.inj (p.known.symm.trans hp)
  have hdirective : q.directive = p.directive := Except.ok.inj (q.known.symm.trans hq)
  obtain ⟨r, hrequest, hfulfil⟩ := p.requested
  obtain ⟨r', hrequest', hfulfil'⟩ := q.requested
  rw [hdirective] at hrequest'
  have hr : r = r' := by
    rw [(Directive.asks_of_request hrequest).eq_asked,
      (Directive.asks_of_request hrequest').eq_asked, hshape.asked_eq]
  rw [hr, hbefore, hfulfil'] at hfulfil
  exact (Except.ok.inj hfulfil).symm

/-- So do lists of them, step by step. -/
theorem placeAll_of_sameShape (hshape : List.Forall₂ SameShape xs ys)
    (hx : placeAll index xs a = .ok (bindings, b)) (hy : placeAll index ys a = .ok (bindings', c)) :
    b = c ∧ (steps xs a).map Step.result = (steps ys a).map Step.result := by
  induction hshape generalizing index a bindings bindings' with
  | nil =>
    cases hx
    cases hy
    exact ⟨rfl, rfl⟩
  | cons hst _ ih =>
    obtain ⟨p, later, rfl, rfl, -, hxrest, -⟩ := placeAll_cons_eq_ok_iff_step.mp hx
    obtain ⟨q, later', rfl, hbefore, -, hyrest, -⟩ := placeAll_cons_eq_ok_iff_step.mp hy
    have hresult := Step.result_eq_of_sameShape hbefore.symm hst
    have hafter : q.after = p.after := congrArg Prod.snd hresult.symm
    rw [hafter] at hyrest
    obtain ⟨hend, hresults⟩ := ih hxrest hyrest
    rw [steps_cons, ← hbefore, steps_cons, hafter, List.map_cons, List.map_cons, hresult, hresults]
    exact ⟨hend, rfl⟩

/-- The label of a statement is bound to what the names of its step stand for. -/
theorem labelBinds_of_step {u : Assembled} (h : layout m xs = .ok u) {p : Step}
    (hp : (steps xs (.fresh m))[index]? = some p) {label : String}
    (hlabel : p.statement.label = some label) : LabelBinds m xs u index label p.item := by
  obtain ⟨⟨bindings, a⟩, hplace, rfl⟩ := map_eq_ok_iff.mp h
  obtain ⟨-, -, rfl⟩ := steps_of_placeAll hplace
  obtain ⟨b, hbefore⟩ := placeAll_take hplace index
  obtain ⟨c, hupTo⟩ := placeAll_take hplace (index + 1)
  let ps := steps xs (.fresh m)
  let others : List Binding := p.declaredName?.toList.map (⟨·, p.item⟩)
  have hbindings : (ps.take (index + 1)).flatMap Step.bindings =
      (ps.take index).flatMap Step.bindings ++ (others ++ [⟨label, p.item⟩]) := by
    simp [ps, others, List.take_add_one, hp, Step.bindings, Step.names, hlabel]
  refine ⟨_, _, others, (ps.drop (index + 1)).flatMap Step.bindings,
    map_eq_ok_iff.mpr ⟨_, hbefore, rfl⟩, map_eq_ok_iff.mpr ⟨_, hupTo, rfl⟩, hbindings, ?_, ?_⟩
  · rw [Assembled.table, hbindings, ← List.append_assoc]
    exact SymbolTable.get?_ofBindings_concat _ ⟨label, p.item⟩
  · rw [← List.flatMap_append, List.take_append_drop]

/-- Units of the same shape that are laid out under a map have the same layout, and where both have
a label at an index, these are bound to the same allocation. -/
theorem layout_of_sameShape {u v : Assembled} (hshape : List.Forall₂ SameShape xs ys)
    (hu : layout m xs = .ok u) (hv : layout m ys = .ok v) :
    u.layout = v.layout ∧
      ∀ index s t name name', xs[index]? = some s → ys[index]? = some t →
        s.label = some name → t.label = some name' →
        ∃ item, LabelBinds m xs u index name item ∧ LabelBinds m ys v index name' item := by
  obtain ⟨⟨bindings, a⟩, hx, hlayout⟩ := map_eq_ok_iff.mp hu
  obtain ⟨⟨bindings', b⟩, hy, hlayout'⟩ := map_eq_ok_iff.mp hv
  obtain ⟨hend, hresults⟩ := placeAll_of_sameShape hshape hx hy
  refine ⟨by rw [← hlayout, ← hlayout', hend], fun index s t name name' hs ht hname hname' => ?_⟩
  rw [← (steps_of_placeAll hx).1, List.getElem?_map, Option.map_eq_some_iff] at hs
  rw [← (steps_of_placeAll hy).1, List.getElem?_map, Option.map_eq_some_iff] at ht
  obtain ⟨p, hp, rfl⟩ := hs
  obtain ⟨q, hq, rfl⟩ := ht
  have hitem : q.item = p.item := by
    have hresult := congrArg (·[index]?) hresults
    simp only [List.getElem?_map, hp, hq, Option.map_some, Option.some.injEq] at hresult
    obtain ⟨hitems, hafter⟩ := Prod.mk.inj hresult
    rw [Step.item, Step.item, hitems, hafter]
  exact ⟨p.item, labelBinds_of_step hu hp hname, hitem ▸ labelBinds_of_step hv hq hname'⟩

/-- Other values, other names and other strings of the same length in bytes. In the second unit both
labels are the same, so that its table keeps the second allocation only. -/
theorem layout_of_sameShape_standard :
    let m := MemoryMap.standard
    let xs : List Statement :=
      [⟨none, ".data", []⟩, ⟨some "s", ".asciiz", [.text "é", .text "abc"]⟩,
        ⟨none, ".extern", [.text "x", .int 8]⟩, ⟨some "w", ".word", [.int 1, .int 2]⟩]
    let ys : List Statement :=
      [⟨some "d", ".DATA", []⟩, ⟨some "n", ".asciiz", [.text "abcd", .text "e"]⟩,
        ⟨none, ".extern", [.text "n", .int 8]⟩, ⟨some "n", ".word", [.int (-1), .int 7]⟩]
    List.Forall₂ SameShape xs ys ∧ ∃ u v, layout m xs = .ok u ∧ layout m ys = .ok v ∧
      u.layout = v.layout ∧ u.table.get? "w" = some ⟨.data, 0x10010008, 4⟩ ∧
      ∃ item, LabelBinds m xs u 3 "w" item ∧ LabelBinds m ys v 3 "n" item := by
  intro m xs ys
  have hselect : SameShape ⟨none, ".data", []⟩ ⟨some "d", ".DATA", []⟩ :=
    ⟨Directive.catalogue[0], by decide +kernel, by decide +kernel, trivial⟩
  have htext : SameShape ⟨some "s", ".asciiz", [.text "é", .text "abc"]⟩
      ⟨some "n", ".asciiz", [.text "abcd", .text "e"]⟩ :=
    ⟨Directive.catalogue[4], by decide +kernel, by decide +kernel, rfl, by decide +kernel⟩
  have hextern : SameShape ⟨none, ".extern", [.text "x", .int 8]⟩
      ⟨none, ".extern", [.text "n", .int 8]⟩ :=
    ⟨Directive.catalogue[11], by decide +kernel, by decide +kernel, rfl⟩
  have hword : SameShape ⟨some "w", ".word", [.int 1, .int 2]⟩
      ⟨some "n", ".word", [.int (-1), .int 7]⟩ :=
    ⟨Directive.catalogue[2], by decide +kernel, by decide +kernel, rfl⟩
  have hshape : List.Forall₂ SameShape xs ys :=
    .cons hselect (.cons htext (.cons hextern (.cons hword .nil)))
  have hw : (layout m xs).toOption.bind (·.table.get? "w") = some ⟨.data, 0x10010008, 4⟩ := by
    decide +kernel
  have hn : (layout m ys).toOption.isSome := by decide +kernel
  cases hu : layout m xs with
  | error failure =>
    rw [hu] at hw
    cases hw
  | ok u =>
    cases hv : layout m ys with
    | error failure =>
      rw [hv] at hn
      cases hn
    | ok v =>
      obtain ⟨hlayout, hlabels⟩ := layout_of_sameShape hshape hu hv
      rw [hu] at hw
      exact ⟨hshape, u, v, rfl, rfl, hlayout, hw, hlabels 3 _ _ "w" "n" rfl rfl rfl rfl⟩

end Assembly

end MipsMemory
