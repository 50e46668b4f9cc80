import TypeHints.Main
import TypeHints.Proofs.AllOrNothing
import TypeHints.Proofs.ArgumentList
import TypeHints.Proofs.CallSites
import TypeHints.Proofs.CheckedNesting
import TypeHints.Proofs.Checkpoint
import TypeHints.Proofs.Collecting
import TypeHints.Proofs.Conversion
import TypeHints.Proofs.Denotation
import TypeHints.Proofs.Dependence
import TypeHints.Proofs.Elimination
import TypeHints.Proofs.Extension
import TypeHints.Proofs.FirstBinding
import TypeHints.Proofs.FunctionComment
import TypeHints.Proofs.InsertionOrder
import TypeHints.Proofs.Instances
import TypeHints.Proofs.Isolation
import TypeHints.Proofs.Json.Format
import TypeHints.Proofs.LateQueue
import TypeHints.Proofs.Levels
import TypeHints.Proofs.LineComment
import TypeHints.Proofs.NormalForm
import TypeHints.Proofs.Offset
import TypeHints.Proofs.Opening
import TypeHints.Proofs.Outcome
import TypeHints.Proofs.Position
import TypeHints.Proofs.Precedence
import TypeHints.Proofs.Printing
import TypeHints.Proofs.Reading
import TypeHints.Proofs.Sandbox
import TypeHints.Proofs.Specialization
import TypeHints.Proofs.TwoPhase
import TypeHints.Proofs.UnboundNames
import TypeHints.Proofs.Unions
import TypeHints.Proofs.Unrepeated.Walk
import TypeHints.Proofs.Visibility
import TypeHints.Proofs.WellFormed.Analysis
