import StackVm.Binary64.Basic
import StackVm.Binary64.Decimal
import StackVm.Binary64.Inspect
import StackVm.ClassHandle
import StackVm.ClassTable
import StackVm.ConstantCache
import StackVm.Environment
import StackVm.Fault
import StackVm.Instruction.Basic
import StackVm.Instruction.Listing
import StackVm.Instruction.Verification
import StackVm.Machine.Basic
import StackVm.Machine.Execution
import StackVm.Options.Basic
import StackVm.Options.Document
import StackVm.Proofs.CacheHistory
import StackVm.Proofs.CacheSoundness
import StackVm.Proofs.CacheWrites
import StackVm.Proofs.ConstantHistory
import StackVm.Proofs.Depth
import StackVm.Proofs.EffectFrame
import StackVm.Proofs.EqualRuns
import StackVm.Proofs.ExactArithmetic
import StackVm.Proofs.FailureFrame
import StackVm.Proofs.FaultOrder
import StackVm.Proofs.FloatLiteral
import StackVm.Proofs.FloatReading
import StackVm.Proofs.FloatRounding
import StackVm.Proofs.FloatText
import StackVm.Proofs.HashExtensionality
import StackVm.Proofs.HashPairs
import StackVm.Proofs.Hierarchy
import StackVm.Proofs.LineEvents
import StackVm.Proofs.Lockstep
import StackVm.Proofs.LosslessListing
import StackVm.Proofs.OperandForms
import StackVm.Proofs.OptionsDocument
import StackVm.Proofs.QuotedReading
import StackVm.Proofs.RefusedRun
import StackVm.Proofs.Registry
import StackVm.Proofs.Relocation
import StackVm.Proofs.Rules
import StackVm.Proofs.Sessions
import StackVm.Proofs.StackLaws
import StackVm.Proofs.StepBudget
import StackVm.Proofs.TextLiteral
import StackVm.Proofs.TomlLines
import StackVm.Proofs.UnderflowReports
import StackVm.Proofs.ValueEquality
import StackVm.Proofs.ValueLiteral
import StackVm.Proofs.VerifiedRun
import StackVm.Proofs.World
import StackVm.Stack
import StackVm.Text.Hex
import StackVm.Text.Quoted
import StackVm.Text.Record
import StackVm.Text.Symbol
import StackVm.Toml.Document
import StackVm.Toml.Item
import StackVm.Toml.Number
import StackVm.Toml.Scan
import StackVm.Unicode.Alphabetic
import StackVm.Unicode.DefaultIgnorable
import StackVm.Unicode.ExtendingMark
import StackVm.Unicode.Numeric
import StackVm.Unicode.Property
import StackVm.Unicode.Range
import StackVm.Unicode.Unprintable
import StackVm.Unicode.WhiteSpace
import StackVm.Value.Basic
import StackVm.Value.Equality
import StackVm.Value.Inspect
import StackVm.Word
