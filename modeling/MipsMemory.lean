import MipsMemory.Main
import MipsMemory.Proofs.Allocator.Packing
import MipsMemory.Proofs.Allocator.Words
import MipsMemory.Proofs.Machine.ReadOnlyText
import MipsMemory.Proofs.Allocator.Placement
import MipsMemory.Proofs.Allocator.Limits
import MipsMemory.Proofs.Allocator.InstructionWords
import MipsMemory.Proofs.Assembly.DataAreas
import MipsMemory.Proofs.Allocator.InPlace
import MipsMemory.Proofs.Memory.FlatArray
import MipsMemory.Proofs.Assembly.InPlace
import MipsMemory.Proofs.Assembly.Prefixes
import MipsMemory.Proofs.Assembly.Sizes
import MipsMemory.Proofs.Assembly.SymbolAddresses
import MipsMemory.Proofs.Assembly.TextSegments
import MipsMemory.Proofs.Assembly.Shapes
import MipsMemory.Proofs.Assembly.Relocation
import MipsMemory.Proofs.Allocator.Independence
import MipsMemory.Proofs.Allocator.AutoAlign
import MipsMemory.Proofs.Machine.Footprint
import MipsMemory.Proofs.Machine.StoreLoad
import MipsMemory.Proofs.RegisterFile.Slots
import MipsMemory.Proofs.Access.Refusal
import MipsMemory.Proofs.Procedure
import MipsMemory.Proofs.Machine.InPlace
import MipsMemory.Proofs.Machine.Faults
import MipsMemory.Proofs.Machine.Verdicts
import MipsMemory.Proofs.Allocator.Relocation
import MipsMemory.Proofs.RegisterFile.History
import MipsMemory.Proofs.Allocator.Overflow
import MipsMemory.Proofs.Assembly.Splitting
import MipsMemory.Proofs.ConfigFile.RoundTrip
import MipsMemory.Proofs.Allocator.NextAddress
import MipsMemory.Proofs.Allocator.Realignment
import MipsMemory.Proofs.Numeral
import MipsMemory.Proofs.RegisterFile.Names
import MipsMemory.Proofs.Directive.Listing
import MipsMemory.Proofs.Numeral.Address
import MipsMemory.Proofs.Rounding
