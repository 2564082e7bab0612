import Folio.Aggregate
import Folio.Build.Basic
import Folio.Build.Layout
import Folio.Build.Schedule
import Folio.Build.Source
import Folio.Build.Survey
import Folio.Build.Tally
import Folio.Build.Task
import Folio.Builtin.Arithmetic
import Folio.Builtin.Basic
import Folio.Builtin.Navigation
import Folio.Builtin.Format
import Folio.Calendar.Date
import Folio.Calendar.Pattern
import Folio.Calendar.Reading
import Folio.Calendar.Timestamp
import Folio.Command
import Folio.Console
import Folio.Decimal.Binary
import Folio.Decimal.Layout
import Folio.Decimal.Numeral
import Folio.Decimal.Shortest
import Folio.Directories
import Folio.Entry.Category
import Folio.Entry.Document
import Folio.Entry.Property
import Folio.Entry.Tag
import Folio.Eval.Machine
import Folio.Eval.Reducer
import Folio.Expr.Basic
import Folio.Expr.Keyword
import Folio.Expr.Parser
import Folio.Expr.Printer
import Folio.Failure
import Folio.Fault
import Folio.FilePath
import Folio.FileTree
import Folio.FileWork
import Folio.Keyed
import Folio.Locale
import Folio.Main
import Folio.Markup.Basic
import Folio.Markup.Draft
import Folio.Markup.Emphasis
import Folio.Markup.Entity
import Folio.Markup.Html
import Folio.Markup.Inline
import Folio.Markup.Line
import Folio.Markup.Link
import Folio.Markup.Outline
import Folio.Markup.RawHtml
import Folio.Markup.Table
import Folio.Page.Basic
import Folio.Page.Bytes
import Folio.Program
import Folio.Proofs.Decimal.FloatBits
import Folio.Proofs.Decimal.Rounding
import Folio.Scope.Basic
import Folio.Scope.Forest
import Folio.Settings.Basic
import Folio.Settings.Loading
import Folio.Settings.Validity
import Folio.SitePath
import Folio.Starter
import Folio.Template.Basic
import Folio.Template.Code
import Folio.Template.Render
import Folio.Text.Blank
import Folio.Text.Boundary
import Folio.Text.CaseFold
import Folio.Text.Encoding
import Folio.Text.Letter
import Folio.Text.Lines
import Folio.Text.Punctuation
import Folio.Text.Quoted
import Folio.Toml.Basic
import Folio.Toml.Draft
import Folio.Toml.Parser
import Folio.Toml.Scalar
import Folio.Proofs.Decimal.Scientific
import Folio.Proofs.Decimal.Shortest
import Folio.Proofs.Decimal.Numeral
import Folio.Proofs.Decimal.RoundTrip
import Folio.Proofs.Calendar.DayNumber
import Folio.Proofs.Calendar.RoundTrip
import Folio.Proofs.Expr.Literal
import Folio.Proofs.Expr.Leaves
import Folio.Proofs.Expr.RoundTrip
import Folio.Proofs.Directories.Moves
import Folio.Proofs.Directories.Sound
import Folio.Proofs.Directories.SingleCreation
import Folio.Proofs.Directories.Outcome
import Folio.Proofs.Directories.Alongside
import Folio.Proofs.Directories.Elsewhere
import Folio.Proofs.Directories.Isolation
import Folio.Proofs.Directories.InTurn
import Folio.Proofs.Template.Substitution
import Folio.Proofs.Template.RoundTrip
import Folio.Proofs.Expr.Grammar
import Folio.Proofs.Template.Cut
import Folio.Proofs.Template.Nesting
import Folio.Proofs.Scope.SelfBinding
import Folio.Proofs.Category.Address
import Folio.Proofs.Eval.SelfBinding
import Folio.Proofs.Keyed
import Folio.Proofs.Category.Partition
import Folio.Proofs.Eval.Outcome
import Folio.Proofs.Tag.Index
import Folio.Proofs.Entry.Resolution
import Folio.Proofs.Page.ByteLines
import Folio.Proofs.Page.Readers
import Folio.Proofs.FilePath
import Folio.Proofs.FileTree
import Folio.Proofs.Build.Output
import Folio.Proofs.Build.Sources
import Folio.Proofs.Build.Runs
import Folio.Proofs.Build.Targets
import Folio.Proofs.Builtin.Timeline
import Folio.Proofs.Build.Frame
import Folio.Proofs.Build.Inputs
import Folio.Proofs.Template.Code
import Folio.Proofs.Scope.Screen
import Folio.Proofs.Eval.CarryOver
import Folio.Proofs.Entry.Capture
import Folio.Proofs.Eval.Canceled
import Folio.Proofs.Eval.Faultless
import Folio.Proofs.Build.Matching
import Folio.Proofs.Build.Schedule
import Folio.Proofs.Build.Finished
import Folio.Proofs.Build.Contested
import Folio.Proofs.Build.InTurn
import Folio.Proofs.Build.Outcomes
import Folio.Proofs.Build.Unpublished
import Folio.Proofs.Build.Kept
import Folio.Proofs.Build.Listing
import Folio.Proofs.Build.Rebuild
import Folio.Proofs.SitePath.NormalForm
import Folio.Proofs.SitePath.Relative
import Folio.Proofs.Text.Lines
import Folio.Proofs.Page.Written
import Folio.Proofs.Toml.Order
import Folio.Proofs.Settings.Metadata
import Folio.Proofs.Builtin.Arithmetic
import Folio.Proofs.Decimal.Whole
import Folio.Proofs.Builtin.Format
import Folio.Proofs.Template.Seam
import Folio.Proofs.Expr.Blanks
import Folio.Proofs.Template.Quotes
import Folio.Proofs.Builtin.LoopItem
import Folio.Proofs.Build.Tally
import Folio.Proofs.Eval.Settled
import Folio.Proofs.Entry.Title
import Folio.Proofs.Entry.Words
import Folio.Proofs.Expr.Brackets
import Folio.Proofs.Settings.Timezone
import Folio.Proofs.Template.Fragments
import Folio.Proofs.Eval.Recorded
import Folio.Proofs.Eval.Tracks
import Folio.Proofs.Scope.Layers
import Folio.Proofs.Console
