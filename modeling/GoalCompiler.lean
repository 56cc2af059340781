import GoalCompiler.Calendar
import GoalCompiler.CommandLine.Arguments
import GoalCompiler.CommandLine.EnvironmentFile
import GoalCompiler.CommandLine.Program
import GoalCompiler.CommandLine.Prompt
import GoalCompiler.CommandLine.Value
import GoalCompiler.Compilation.Compiler
import GoalCompiler.Compilation.Exchange
import GoalCompiler.Compilation.HostState
import GoalCompiler.Compilation.Instruction
import GoalCompiler.Compilation.Stages
import GoalCompiler.Dict
import GoalCompiler.Embedding.Cache
import GoalCompiler.Embedding.Configured
import GoalCompiler.Embedding.Embedder
import GoalCompiler.Embedding.Hashing
import GoalCompiler.Embedding.Remote
import GoalCompiler.Embedding.Similarity
import GoalCompiler.Expression.Arithmetic
import GoalCompiler.Expression.Document
import GoalCompiler.Expression.Evaluation
import GoalCompiler.Expression.Fault
import GoalCompiler.Expression.Function
import GoalCompiler.Expression.Grammar
import GoalCompiler.Expression.Scalar
import GoalCompiler.Expression.Template
import GoalCompiler.Expression.Token
import GoalCompiler.Expression.Tree
import GoalCompiler.Failure
import GoalCompiler.FileTree
import GoalCompiler.Goal.Analysis
import GoalCompiler.Goal.Excerpt
import GoalCompiler.Goal.ModifierMatch
import GoalCompiler.Goal.Selection
import GoalCompiler.Goal.Targets
import GoalCompiler.Graph
import GoalCompiler.Json.Reader
import GoalCompiler.Json.Shape
import GoalCompiler.Json.Value
import GoalCompiler.Json.Writer
import GoalCompiler.Main
import GoalCompiler.Memory.FileStore
import GoalCompiler.Memory.HeldStore
import GoalCompiler.Memory.Mapping
import GoalCompiler.Memory.Stamp
import GoalCompiler.Memory.Store
import GoalCompiler.Number.Dyadic
import GoalCompiler.Number.Layout
import GoalCompiler.Number.Numeral
import GoalCompiler.Number.Shortest
import GoalCompiler.Number.Single
import GoalCompiler.Registry
import GoalCompiler.Resolution.Question
import GoalCompiler.Resolution.Resolver
import GoalCompiler.Resolution.Session
import GoalCompiler.Resolution.Tier
import GoalCompiler.ServiceError
import GoalCompiler.Settings
import GoalCompiler.Settings.Reading
import GoalCompiler.Settings.Sources
import GoalCompiler.Text.Category
import GoalCompiler.Text.CharSet
import GoalCompiler.Text.Character
import GoalCompiler.Text.LetterCase
import GoalCompiler.Text.Pattern.Basic
import GoalCompiler.Text.Pattern.Reader
import GoalCompiler.Text.Phrases
import GoalCompiler.Text.Reading
import GoalCompiler.Text.Sentences
import GoalCompiler.Text.Words
import GoalCompiler.Toml.Reader
import GoalCompiler.Toml.Scalar
import GoalCompiler.Toml.Table
import GoalCompiler.Workflow.Basic
import GoalCompiler.Workflow.Bindings
import GoalCompiler.Workflow.Computed
import GoalCompiler.Workflow.Document
import GoalCompiler.Workflow.Files
import GoalCompiler.Workflow.Filling
import GoalCompiler.Workflow.Loop
import GoalCompiler.Workflow.Parameter
import GoalCompiler.Workflow.Sequence
import GoalCompiler.Workflow.Step
import GoalCompiler.Workflow.Unrolling
import GoalCompiler.Workflow.Validation
import GoalCompiler.Proofs.Graph.Waiting
import GoalCompiler.Proofs.Graph.Countdown
import GoalCompiler.Proofs.Graph.Arrangement
import GoalCompiler.Proofs.Graph.Cycles
import GoalCompiler.Proofs.Outcome
import GoalCompiler.Proofs.Workflow.Dependence
import GoalCompiler.Proofs.Compilation.Choice
import GoalCompiler.Proofs.Number.Whole
import GoalCompiler.Proofs.Workflow.Combinations
import GoalCompiler.Proofs.Workflow.Unrolling
import GoalCompiler.Proofs.Workflow.StepLimit
import GoalCompiler.Proofs.Workflow.PlainSteps
import GoalCompiler.Proofs.Dictionary
import GoalCompiler.Proofs.Expression.Absence
import GoalCompiler.Proofs.Expression.Locality
import GoalCompiler.Proofs.Workflow.Acceptance
import GoalCompiler.Proofs.Workflow.Computation
import GoalCompiler.Proofs.Workflow.Soundness
import GoalCompiler.Proofs.Workflow.Tracing
import GoalCompiler.Proofs.Compilation.Provenance
import GoalCompiler.Proofs.Compilation.Reached
import GoalCompiler.Proofs.Workflow.Precedence
import GoalCompiler.Proofs.Compilation.Precedence
import GoalCompiler.Proofs.Expression.Derivation
import GoalCompiler.Proofs.Expression.Recognition
import GoalCompiler.Proofs.Expression.Depth
import GoalCompiler.Proofs.Expression.Spelling
import GoalCompiler.Proofs.Expression.Deepest
import GoalCompiler.Proofs.Graph.Earliest
import GoalCompiler.Proofs.Graph.Closed
import GoalCompiler.Proofs.Graph.Search
import GoalCompiler.Proofs.Workflow.Sequence
import GoalCompiler.Proofs.Compilation.Guards
import GoalCompiler.Proofs.Compilation.Origins
import GoalCompiler.Proofs.Number.Order
import GoalCompiler.Proofs.Resolution.Groups
import GoalCompiler.Proofs.Resolution.Turns
import GoalCompiler.Proofs.Resolution.Course
import GoalCompiler.Proofs.Memory.Records
import GoalCompiler.Proofs.Compilation.Learning
import GoalCompiler.Proofs.Memory.Ranking
import GoalCompiler.Proofs.Memory.History
import GoalCompiler.Proofs.Memory.Agreement
import GoalCompiler.Proofs.Embedding.Transparency
import GoalCompiler.Proofs.Workflow.Ranges
import GoalCompiler.Proofs.Expression.Exactness
import GoalCompiler.Proofs.Number.Canonical
import GoalCompiler.Proofs.Number.Rounding
import GoalCompiler.Proofs.Expression.Ordering
import GoalCompiler.Proofs.Expression.Finiteness
import GoalCompiler.Proofs.Number.Digits
import GoalCompiler.Proofs.Number.Integral
import GoalCompiler.Proofs.Text.Blanks
import GoalCompiler.Proofs.Expression.WholeParts
import GoalCompiler.Proofs.Expression.Rendering
import GoalCompiler.Proofs.Expression.Lookahead
import GoalCompiler.Proofs.Expression.Numerals
import GoalCompiler.Proofs.Expression.Substitution
import GoalCompiler.Proofs.Graph.Labels
import GoalCompiler.Proofs.Workflow.ComputedOrder
import GoalCompiler.Proofs.Compilation.Skipping
import GoalCompiler.Proofs.Goal.Assignments
import GoalCompiler.Proofs.Goal.Judgement
import GoalCompiler.Proofs.Resolution.Remembered
import GoalCompiler.Proofs.Workflow.Defaults
import GoalCompiler.Proofs.Resolution.Defaults
import GoalCompiler.Proofs.Compilation.Defaults
import GoalCompiler.Proofs.Json.Members
import GoalCompiler.Proofs.Compilation.Circles
import GoalCompiler.Proofs.Compilation.Failures
import GoalCompiler.Proofs.Compilation.FirstPass
import GoalCompiler.Proofs.Compilation.Visibility
import GoalCompiler.Proofs.Compilation.InstructionForm
import GoalCompiler.Proofs.Workflow.WholeValues
import GoalCompiler.Proofs.Workflow.Forms
import GoalCompiler.Proofs.Workflow.ValueTypes
import GoalCompiler.Proofs.Resolution.Questions
import GoalCompiler.Proofs.Compilation.Remembering
import GoalCompiler.Proofs.Text.Bytes
import GoalCompiler.Proofs.Goal.Excerpt
