import TextGrammar.CommandLine.Arguments
import TextGrammar.CommandLine.Command
import TextGrammar.CommandLine.Report
import TextGrammar.Condition.Comparison
import TextGrammar.Condition.Evaluation
import TextGrammar.Condition.Grammar
import TextGrammar.Condition.Lexeme
import TextGrammar.Condition.Predicate
import TextGrammar.Condition.Problem
import TextGrammar.Condition.Reading
import TextGrammar.Condition.Token
import TextGrammar.Condition.Tree
import TextGrammar.Config.Basic
import TextGrammar.Config.Keyword
import TextGrammar.Config.Settings
import TextGrammar.Config.Tagged
import TextGrammar.Document.Basic
import TextGrammar.Document.Problem
import TextGrammar.Engine.Basic
import TextGrammar.Engine.Cycle
import TextGrammar.Engine.Expansion
import TextGrammar.Engine.Request
import TextGrammar.Engine.Review
import TextGrammar.Failure
import TextGrammar.Fault
import TextGrammar.Function.Builtin
import TextGrammar.Function.Handler
import TextGrammar.Function.Registry
import TextGrammar.Json.Printer
import TextGrammar.Json.Problem
import TextGrammar.Json.Reader
import TextGrammar.LoadError
import TextGrammar.Loading
import TextGrammar.Main
import TextGrammar.Modifier.Article
import TextGrammar.Modifier.Basic
import TextGrammar.Modifier.Sentence
import TextGrammar.Modifier.Spacing
import TextGrammar.Moment
import TextGrammar.Note
import TextGrammar.Number.Basic
import TextGrammar.Number.Binary64
import TextGrammar.Number.Fixed
import TextGrammar.Number.Numeral
import TextGrammar.Number.Rounding
import TextGrammar.Number.Shortest
import TextGrammar.Proofs.CommandLine.Classified
import TextGrammar.Proofs.CommandLine.Seeded
import TextGrammar.Proofs.Condition.Coherence
import TextGrammar.Proofs.Condition.Compiled
import TextGrammar.Proofs.Condition.Completeness
import TextGrammar.Proofs.Condition.Dependence
import TextGrammar.Proofs.Condition.Derivation
import TextGrammar.Proofs.Condition.Evaluation
import TextGrammar.Proofs.Condition.Exact
import TextGrammar.Proofs.Condition.Faults
import TextGrammar.Proofs.Condition.Keys
import TextGrammar.Proofs.Condition.Layout
import TextGrammar.Proofs.Condition.Lexical
import TextGrammar.Proofs.Condition.Negation
import TextGrammar.Proofs.Condition.Roundtrip
import TextGrammar.Proofs.Condition.Soundness
import TextGrammar.Proofs.Condition.Unique
import TextGrammar.Proofs.Condition.Writing
import TextGrammar.Proofs.Config.Forms
import TextGrammar.Proofs.Config.Lists
import TextGrammar.Proofs.Config.Unchecked
import TextGrammar.Proofs.Cycle.Component
import TextGrammar.Proofs.Cycle.Depth
import TextGrammar.Proofs.Cycle.Follows
import TextGrammar.Proofs.Cycle.Reported
import TextGrammar.Proofs.Cycle.Search
import TextGrammar.Proofs.Effect
import TextGrammar.Proofs.Expansion.Circular
import TextGrammar.Proofs.Expansion.Completions
import TextGrammar.Proofs.Expansion.Concatenation
import TextGrammar.Proofs.Expansion.Context
import TextGrammar.Proofs.Expansion.Depth
import TextGrammar.Proofs.Expansion.Drawing
import TextGrammar.Proofs.Expansion.Language
import TextGrammar.Proofs.Expansion.Limit
import TextGrammar.Proofs.Expansion.Resolutions
import TextGrammar.Proofs.Expansion.Step
import TextGrammar.Proofs.Expansion.Unfolding
import TextGrammar.Proofs.Expansion.Worlds
import TextGrammar.Proofs.Function.Dice
import TextGrammar.Proofs.History.Bound
import TextGrammar.Proofs.History.Journal
import TextGrammar.Proofs.History.Origin
import TextGrammar.Proofs.History.Sequential
import TextGrammar.Proofs.History.Session
import TextGrammar.Proofs.Json.Short
import TextGrammar.Proofs.Keyword.Agreement
import TextGrammar.Proofs.Keyword.Conversion
import TextGrammar.Proofs.Keyword.Reading
import TextGrammar.Proofs.Keyword.TaggedForm
import TextGrammar.Proofs.Loading.Conditional
import TextGrammar.Proofs.Loading.Entries
import TextGrammar.Proofs.Loading.Exact
import TextGrammar.Proofs.Loading.Makes
import TextGrammar.Proofs.Loading.Materialised
import TextGrammar.Proofs.Loading.Plan
import TextGrammar.Proofs.Loading.Related
import TextGrammar.Proofs.Loading.Repeated
import TextGrammar.Proofs.Loading.Seeds
import TextGrammar.Proofs.Loading.Unchecked
import TextGrammar.Proofs.Modifier.Agreement
import TextGrammar.Proofs.Modifier.Article
import TextGrammar.Proofs.Modifier.Named
import TextGrammar.Proofs.Modifier.Sentence
import TextGrammar.Proofs.Modifier.Spacing
import TextGrammar.Proofs.Number.Decimal
import TextGrammar.Proofs.Number.Digits
import TextGrammar.Proofs.Number.Monotone
import TextGrammar.Proofs.Number.Order
import TextGrammar.Proofs.Number.Overflow
import TextGrammar.Proofs.Number.Short
import TextGrammar.Proofs.Rule.Branches
import TextGrammar.Proofs.Rule.Choice
import TextGrammar.Proofs.Rule.Coverage
import TextGrammar.Proofs.Rule.Decision
import TextGrammar.Proofs.Rule.Grid
import TextGrammar.Proofs.Rule.Interval
import TextGrammar.Proofs.Rule.References
import TextGrammar.Proofs.Rule.Texts
import TextGrammar.Proofs.Rule.Weights
import TextGrammar.Proofs.Rule.Worlds
import TextGrammar.Proofs.Slot.Edges
import TextGrammar.Proofs.Slot.Filled
import TextGrammar.Proofs.Slot.Scan
import TextGrammar.Proofs.Text.Classes
import TextGrammar.Proofs.Traversal
import TextGrammar.Proofs.Value.Equality
import TextGrammar.Proofs.Value.Short
import TextGrammar.Random.Draws
import TextGrammar.Random.Script
import TextGrammar.Random.Twister
import TextGrammar.Rule.Basic
import TextGrammar.Rule.Guard
import TextGrammar.Rule.Pick
import TextGrammar.Rule.Range
import TextGrammar.Rule.Slot
import TextGrammar.Rule.Weighted
import TextGrammar.Session
import TextGrammar.Table
import TextGrammar.Text.Blank
import TextGrammar.Text.Digit
import TextGrammar.Text.Hex
import TextGrammar.Text.Letter
import TextGrammar.Text.Printable
import TextGrammar.Text.Quoted
import TextGrammar.Text.Ranges
import TextGrammar.Text.Split
import TextGrammar.Toml.Draft
import TextGrammar.Toml.Reader
import TextGrammar.Toml.Stamp
import TextGrammar.Toml.Text
import TextGrammar.Value.Basic
import TextGrammar.Value.Order
import TextGrammar.Value.Stamp
import TextGrammar.Value.Text
import TextGrammar.Yaml.Cursor
import TextGrammar.Yaml.Node
import TextGrammar.Yaml.Reader
import TextGrammar.Yaml.Scalar
import TextGrammar.Yaml.Stamp
import TextGrammar.Yaml.Text
