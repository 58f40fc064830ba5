import EntityFormulas.Collection.Ascending
import EntityFormulas.Collection.Dict
import EntityFormulas.Collection.Table
import EntityFormulas.CommandLine.Invocation
import EntityFormulas.CommandLine.Run
import EntityFormulas.CommandLine.Timestamp
import EntityFormulas.Computation.Gathering
import EntityFormulas.Computation.Json
import EntityFormulas.Computation.Pass
import EntityFormulas.Computation.Service
import EntityFormulas.Decimal.Binary
import EntityFormulas.Decimal.Literal
import EntityFormulas.Decimal.Rounding
import EntityFormulas.Decimal.Shortest
import EntityFormulas.Entity.Basic
import EntityFormulas.Entity.Json
import EntityFormulas.Entity.Property
import EntityFormulas.Entity.Status
import EntityFormulas.Entity.Value
import EntityFormulas.Evaluation.Arithmetic
import EntityFormulas.Evaluation.Context
import EntityFormulas.Evaluation.Error
import EntityFormulas.Evaluation.Evaluator
import EntityFormulas.Evaluation.Function
import EntityFormulas.Evaluation.Level
import EntityFormulas.Formula.Expression
import EntityFormulas.Formula.Expression.Parse
import EntityFormulas.Formula.Json
import EntityFormulas.Formula.Reference
import EntityFormulas.Formula.Template
import EntityFormulas.Formula.Token
import EntityFormulas.Formula.Token.Scan
import EntityFormulas.Json.Basic
import EntityFormulas.Json.Decoder
import EntityFormulas.Json.Numeral
import EntityFormulas.Json.Outline
import EntityFormulas.Json.Printer
import EntityFormulas.Json.Reader
import EntityFormulas.Json.Scan
import EntityFormulas.Main
import EntityFormulas.Recalculation.Basic
import EntityFormulas.Recalculation.Handler
import EntityFormulas.Recalculation.Schedule
import EntityFormulas.Recalculation.Task
import EntityFormulas.Proofs.Computation.Outcome
import EntityFormulas.Proofs.Evaluation.Completeness
import EntityFormulas.Proofs.Evaluation.Meaning
import EntityFormulas.Proofs.Evaluation.Simulation
import EntityFormulas.Proofs.Evaluation.Soundness
import EntityFormulas.Proofs.Store.Answers
import EntityFormulas.Settings
import EntityFormulas.Store.Basic
import EntityFormulas.Store.Conformance
import EntityFormulas.Store.Fault
import EntityFormulas.Store.Fixture
import EntityFormulas.Store.Lookup
import EntityFormulas.Store.Memory
import EntityFormulas.Store.Record
import EntityFormulas.Text.Case
import EntityFormulas.Text.CaseRuns
import EntityFormulas.Text.CasedRanges
import EntityFormulas.Text.CodePoints
import EntityFormulas.Text.LetterRanges
import EntityFormulas.Text.NumeralRanges
import EntityFormulas.Text.Quoted
import EntityFormulas.Text.UnprintableRanges
import EntityFormulas.Toml.Document
import EntityFormulas.Toml.Scalar
import EntityFormulas.Proofs.Computation.Reach
import EntityFormulas.Proofs.Evaluation.Agreement
import EntityFormulas.Proofs.Computation.FullContext
import EntityFormulas.Proofs.Computation.Chains
import EntityFormulas.Proofs.Evaluation.Cycles
import EntityFormulas.Proofs.Computation.Circularity
import EntityFormulas.Proofs.Evaluation.Caching
import EntityFormulas.Proofs.Computation.Marking
import EntityFormulas.Proofs.Computation.Incremental
import EntityFormulas.Proofs.Computation.Repetition
import EntityFormulas.Proofs.Recalculation.Locks
import EntityFormulas.Proofs.Computation.Records
import EntityFormulas.Proofs.Recalculation.Plans
import EntityFormulas.Proofs.Recalculation.Pending
import EntityFormulas.Proofs.Recalculation.Quiescence
import EntityFormulas.Proofs.Evaluation.Calls
import EntityFormulas.Proofs.Evaluation.History
import EntityFormulas.Proofs.Formula.Acceptance
import EntityFormulas.Proofs.Formula.Nesting
import EntityFormulas.Proofs.Recalculation.Exclusion
import EntityFormulas.Proofs.Computation.WriteBack
import EntityFormulas.Proofs.Recalculation.Transitions
import EntityFormulas.Proofs.Computation.Coherence
import EntityFormulas.Proofs.Evaluation.ReportedCycles
import EntityFormulas.Proofs.Computation.CircularStatus
import EntityFormulas.Proofs.Recalculation.Publication
import EntityFormulas.Proofs.Evaluation.Confinement
import EntityFormulas.Proofs.Computation.Passes
import EntityFormulas.Proofs.Computation.Succession
import EntityFormulas.Proofs.Computation.Postponement
import EntityFormulas.Proofs.Recalculation.Decisions
import EntityFormulas.Proofs.Recalculation.Calm
import EntityFormulas.Proofs.Recalculation.Progress
import EntityFormulas.Proofs.Recalculation.Solitude
import EntityFormulas.Proofs.Recalculation.Turns
import EntityFormulas.Proofs.Recalculation.Modes
import EntityFormulas.Proofs.Store.Operations
import EntityFormulas.Proofs.Store.Replay
import EntityFormulas.Proofs.Computation.Timestamps
import EntityFormulas.Proofs.Computation.ParseCache
import EntityFormulas.Proofs.Computation.Isolation
import EntityFormulas.Proofs.Recalculation.QueueLog
import EntityFormulas.Proofs.Recalculation.Conservation
import EntityFormulas.Proofs.Recalculation.Debounce
import EntityFormulas.Proofs.Recalculation.Attendance
import EntityFormulas.Proofs.Recalculation.Shutdown
import EntityFormulas.Proofs.Formula.Templates
import EntityFormulas.Proofs.Store.Codec
import EntityFormulas.Proofs.Store.Merging
import EntityFormulas.Proofs.Recalculation.Loading
import EntityFormulas.Proofs.Recalculation.Copies
import EntityFormulas.Proofs.Recalculation.Interleaving
import EntityFormulas.Proofs.Evaluation.Budget
import EntityFormulas.Proofs.Store.Reads
import EntityFormulas.Proofs.Computation.Frugality
import EntityFormulas.Proofs.Evaluation.FiniteAnswers
import EntityFormulas.Proofs.Formula.Traversals
import EntityFormulas.Proofs.Formula.Mentions
import EntityFormulas.Proofs.Evaluation.Indifference
import EntityFormulas.Proofs.Recalculation.Stages
import EntityFormulas.Proofs.Recalculation.FailureCount
import EntityFormulas.Proofs.Recalculation.Marks
import EntityFormulas.Proofs.Formula.Spans
import EntityFormulas.Proofs.Decimal.Operands
import EntityFormulas.Proofs.Evaluation.Units
import EntityFormulas.Proofs.Evaluation.Chronology
import EntityFormulas.Proofs.Formula.Literals
import EntityFormulas.Proofs.Formula.OwnTokens
