import SpecRecovery.Abi.Codec
import SpecRecovery.Abi.Interface
import SpecRecovery.Abi.Spelling
import SpecRecovery.Abi.Type
import SpecRecovery.Artifact.Basic
import SpecRecovery.Artifact.Codec
import SpecRecovery.Artifact.Contract
import SpecRecovery.Assembly.Basic
import SpecRecovery.Assembly.Entry
import SpecRecovery.Contract
import SpecRecovery.Enrichment
import SpecRecovery.Event
import SpecRecovery.Exploration.Query
import SpecRecovery.Exploration.Script
import SpecRecovery.Exploration.Summary
import SpecRecovery.Failure.Basic
import SpecRecovery.Failure.Report
import SpecRecovery.Json.Basic
import SpecRecovery.Json.Printer
import SpecRecovery.Json.Reader
import SpecRecovery.Json.Values
import SpecRecovery.Keccak
import SpecRecovery.Layout.Basic
import SpecRecovery.Layout.Resolver
import SpecRecovery.Lifting.Idiom
import SpecRecovery.Lifting.Lifter
import SpecRecovery.Lowering.Condition
import SpecRecovery.Lowering.Lowerer
import SpecRecovery.Machine.Assignment
import SpecRecovery.Machine.Environment
import SpecRecovery.Machine.Evaluation
import SpecRecovery.Machine.Program
import SpecRecovery.Machine.ProgramCodec
import SpecRecovery.Machine.Rendering
import SpecRecovery.Machine.Term
import SpecRecovery.Machine.TermCodec
import SpecRecovery.Operator
import SpecRecovery.Proofs.Abi.Codec
import SpecRecovery.Proofs.Abi.Range
import SpecRecovery.Proofs.Abi.Reading
import SpecRecovery.Proofs.Abi.Signature
import SpecRecovery.Proofs.Abi.Spelling
import SpecRecovery.Proofs.Artifact.Parameter
import SpecRecovery.Proofs.Artifact.Sizes
import SpecRecovery.Proofs.Artifact.Termination
import SpecRecovery.Proofs.Assembly.Basic
import SpecRecovery.Proofs.Assembly.Combination
import SpecRecovery.Proofs.Assembly.Creation
import SpecRecovery.Proofs.Assembly.Entry
import SpecRecovery.Proofs.Assembly.RoundTrip
import SpecRecovery.Proofs.Assembly.Shape
import SpecRecovery.Proofs.Enrichment.Facts
import SpecRecovery.Proofs.Enrichment.Typing
import SpecRecovery.Proofs.Exploration.Successes
import SpecRecovery.Proofs.Failure.Report
import SpecRecovery.Proofs.Failure.Sorting
import SpecRecovery.Proofs.Json.Decoding
import SpecRecovery.Proofs.Layout.Inversion
import SpecRecovery.Proofs.Layout.Resolution
import SpecRecovery.Proofs.Lifting.Check
import SpecRecovery.Proofs.Lifting.Comparison
import SpecRecovery.Proofs.Lifting.Extension
import SpecRecovery.Proofs.Lifting.Idiom
import SpecRecovery.Proofs.Lifting.Meaning
import SpecRecovery.Proofs.Lifting.Overflow
import SpecRecovery.Proofs.Lifting.Relation
import SpecRecovery.Proofs.Lifting.Soundness
import SpecRecovery.Proofs.Lowering.Acceptance
import SpecRecovery.Proofs.Lowering.Branch
import SpecRecovery.Proofs.Lowering.Conditional
import SpecRecovery.Proofs.Lowering.Location
import SpecRecovery.Proofs.Lowering.Meaning
import SpecRecovery.Proofs.Lowering.Operation
import SpecRecovery.Proofs.Lowering.RangeFact
import SpecRecovery.Proofs.Lowering.Refinement
import SpecRecovery.Proofs.Lowering.Signedness
import SpecRecovery.Proofs.Lowering.State
import SpecRecovery.Proofs.Machine.Denotation
import SpecRecovery.Proofs.Machine.Encoding
import SpecRecovery.Proofs.Machine.Flattening
import SpecRecovery.Proofs.Machine.Lookup
import SpecRecovery.Proofs.Machine.ReadWord
import SpecRecovery.Proofs.Machine.StoreContents
import SpecRecovery.Proofs.Machine.Writes
import SpecRecovery.Proofs.Recovery.Run
import SpecRecovery.Proofs.Recovery.Soundness
import SpecRecovery.Proofs.Result
import SpecRecovery.Proofs.Sampling.Coverage
import SpecRecovery.Proofs.Sampling.Determination
import SpecRecovery.Proofs.Sampling.Equivalence
import SpecRecovery.Proofs.Sampling.Literal
import SpecRecovery.Proofs.Sampling.Outcome
import SpecRecovery.Proofs.Sampling.Run
import SpecRecovery.Proofs.Spec.Agreement
import SpecRecovery.Proofs.Spec.Canonical
import SpecRecovery.Proofs.Spec.ExpressionCodec
import SpecRecovery.Proofs.Spec.NormalForm
import SpecRecovery.Proofs.Spec.Occurrence
import SpecRecovery.Proofs.Spec.Parts
import SpecRecovery.Proofs.Spec.Signedness
import SpecRecovery.Proofs.Spec.SpecificationCodec
import SpecRecovery.Proofs.Spec.Storage
import SpecRecovery.Proofs.Spec.Wrapping
import SpecRecovery.Proofs.Table.Ascending
import SpecRecovery.Proofs.Table.Lookup
import SpecRecovery.Proofs.Text.Balance
import SpecRecovery.Proofs.Text.Decimal
import SpecRecovery.Proofs.Text.Hex
import SpecRecovery.Proofs.Verification.Assumptions
import SpecRecovery.Proofs.Verification.Behaviours
import SpecRecovery.Proofs.Verification.Exactness
import SpecRecovery.Proofs.Verification.Outcome
import SpecRecovery.Proofs.Verification.Query
import SpecRecovery.Proofs.Word.Bytes
import SpecRecovery.Proofs.Word.Conversion
import SpecRecovery.Proofs.Word.Integer
import SpecRecovery.Proofs.Word.Power
import SpecRecovery.Proofs.Word.SignExtension
import SpecRecovery.Proofs.Word.TwosComplement
import SpecRecovery.Random.Draw
import SpecRecovery.Random.Stream
import SpecRecovery.Recovery
import SpecRecovery.Sampling.Atom
import SpecRecovery.Sampling.Sampler
import SpecRecovery.Sampling.Solver
import SpecRecovery.Spec.Canonical
import SpecRecovery.Spec.Expression
import SpecRecovery.Spec.ExpressionCodec
import SpecRecovery.Spec.Rendering
import SpecRecovery.Spec.Specification
import SpecRecovery.Spec.SpecificationCodec
import SpecRecovery.Spec.Valuation
import SpecRecovery.Table
import SpecRecovery.Text.Numeral
import SpecRecovery.Text.Quoted
import SpecRecovery.Verification.Basic
import SpecRecovery.Verification.Codec
import SpecRecovery.Verification.Outcome
import SpecRecovery.Word
