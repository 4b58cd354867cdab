import DashboardMarkup.Check.Finding
import DashboardMarkup.Document.Article
import DashboardMarkup.Document.Blocks
import DashboardMarkup.Document.Dashboard
import DashboardMarkup.Document.Heading
import DashboardMarkup.Document.Island
import DashboardMarkup.Document.Looks
import DashboardMarkup.Document.Measure
import DashboardMarkup.Document.Period
import DashboardMarkup.Document.Placement
import DashboardMarkup.Document.Problem
import DashboardMarkup.Document.Reading
import DashboardMarkup.Document.WidgetTag
import DashboardMarkup.Edit.Address
import DashboardMarkup.Edit.Change
import DashboardMarkup.Edit.Insert
import DashboardMarkup.Edit.Lines
import DashboardMarkup.Edit.Splice
import DashboardMarkup.Json.Decode
import DashboardMarkup.Json.Flaw
import DashboardMarkup.Json.Lexeme
import DashboardMarkup.Json.Printer
import DashboardMarkup.Json.Reader
import DashboardMarkup.Json.Value
import DashboardMarkup.Layout.Basic
import DashboardMarkup.Layout.Keyed
import DashboardMarkup.Markup.Attribute
import DashboardMarkup.Markup.Bounds
import DashboardMarkup.Markup.Content
import DashboardMarkup.Markup.Element
import DashboardMarkup.Markup.Entity
import DashboardMarkup.Markup.Tag
import DashboardMarkup.Number.Decimal
import DashboardMarkup.Number.Double
import DashboardMarkup.Number.Shortest
import DashboardMarkup.Number.Whole
import DashboardMarkup.Proofs.Check.Findings
import DashboardMarkup.Proofs.Checked.Basic
import DashboardMarkup.Proofs.Checked.Element
import DashboardMarkup.Proofs.Checked.Query
import DashboardMarkup.Proofs.Checked.Tag
import DashboardMarkup.Proofs.Checked.Template
import DashboardMarkup.Proofs.Document.Completes
import DashboardMarkup.Proofs.Document.Counts
import DashboardMarkup.Proofs.Document.Filled
import DashboardMarkup.Proofs.Document.FirstShown
import DashboardMarkup.Proofs.Document.Fixed
import DashboardMarkup.Proofs.Document.Frame
import DashboardMarkup.Proofs.Document.Given
import DashboardMarkup.Proofs.Document.Gives
import DashboardMarkup.Proofs.Document.Grid
import DashboardMarkup.Proofs.Document.Inner
import DashboardMarkup.Proofs.Document.Layouts
import DashboardMarkup.Proofs.Document.Made
import DashboardMarkup.Proofs.Document.Moved
import DashboardMarkup.Proofs.Document.Parts
import DashboardMarkup.Proofs.Document.Place
import DashboardMarkup.Proofs.Document.Placed
import DashboardMarkup.Proofs.Document.Problems
import DashboardMarkup.Proofs.Document.Quiet
import DashboardMarkup.Proofs.Document.Readable
import DashboardMarkup.Proofs.Document.References
import DashboardMarkup.Proofs.Document.Refused
import DashboardMarkup.Proofs.Document.RefusedConfig
import DashboardMarkup.Proofs.Document.RowAndGrid
import DashboardMarkup.Proofs.Document.RowIds
import DashboardMarkup.Proofs.Document.Section
import DashboardMarkup.Proofs.Document.Settings
import DashboardMarkup.Proofs.Document.Shell
import DashboardMarkup.Proofs.Document.Slots
import DashboardMarkup.Proofs.Document.Sound
import DashboardMarkup.Proofs.Document.Thinned
import DashboardMarkup.Proofs.Document.Topics
import DashboardMarkup.Proofs.Document.Visuals
import DashboardMarkup.Proofs.Document.Whole
import DashboardMarkup.Proofs.Edit.Agreement
import DashboardMarkup.Proofs.Edit.Block
import DashboardMarkup.Proofs.Edit.Board
import DashboardMarkup.Proofs.Edit.Cell
import DashboardMarkup.Proofs.Edit.Census
import DashboardMarkup.Proofs.Edit.Context
import DashboardMarkup.Proofs.Edit.Exact
import DashboardMarkup.Proofs.Edit.FirstKept
import DashboardMarkup.Proofs.Edit.Growth
import DashboardMarkup.Proofs.Edit.Island
import DashboardMarkup.Proofs.Edit.Joined
import DashboardMarkup.Proofs.Edit.Kept
import DashboardMarkup.Proofs.Edit.LastWrite
import DashboardMarkup.Proofs.Edit.Legible
import DashboardMarkup.Proofs.Edit.Lone
import DashboardMarkup.Proofs.Edit.NewBlock
import DashboardMarkup.Proofs.Edit.NewGroup
import DashboardMarkup.Proofs.Edit.NewPeriod
import DashboardMarkup.Proofs.Edit.NewQuery
import DashboardMarkup.Proofs.Edit.NewWidget
import DashboardMarkup.Proofs.Edit.OwnLines
import DashboardMarkup.Proofs.Edit.Part
import DashboardMarkup.Proofs.Edit.Reach
import DashboardMarkup.Proofs.Edit.ReadBack
import DashboardMarkup.Proofs.Edit.Refill
import DashboardMarkup.Proofs.Edit.Remaining
import DashboardMarkup.Proofs.Edit.Removal
import DashboardMarkup.Proofs.Edit.Retagged
import DashboardMarkup.Proofs.Edit.RootTag
import DashboardMarkup.Proofs.Edit.SetApart
import DashboardMarkup.Proofs.Edit.Simultaneous
import DashboardMarkup.Proofs.Edit.Source
import DashboardMarkup.Proofs.Edit.Thinning
import DashboardMarkup.Proofs.Edit.Tree
import DashboardMarkup.Proofs.Edit.Undisturbed
import DashboardMarkup.Proofs.Edit.Walk
import DashboardMarkup.Proofs.Json.Lexeme
import DashboardMarkup.Proofs.Json.Object
import DashboardMarkup.Proofs.Json.Reader
import DashboardMarkup.Proofs.Markup.Alike
import DashboardMarkup.Proofs.Markup.Apart
import DashboardMarkup.Proofs.Markup.Before
import DashboardMarkup.Proofs.Markup.Changes
import DashboardMarkup.Proofs.Markup.Course
import DashboardMarkup.Proofs.Markup.Forest
import DashboardMarkup.Proofs.Markup.Free
import DashboardMarkup.Proofs.Markup.Moved
import DashboardMarkup.Proofs.Markup.Node
import DashboardMarkup.Proofs.Markup.Opens
import DashboardMarkup.Proofs.Markup.Part
import DashboardMarkup.Proofs.Markup.Pruned
import DashboardMarkup.Proofs.Markup.Rendered
import DashboardMarkup.Proofs.Markup.RoundTrip
import DashboardMarkup.Proofs.Markup.Squeezed
import DashboardMarkup.Proofs.Markup.Standing
import DashboardMarkup.Proofs.Markup.Step
import DashboardMarkup.Proofs.Markup.Strewn
import DashboardMarkup.Proofs.Markup.Thinned
import DashboardMarkup.Proofs.Markup.Written
import DashboardMarkup.Proofs.Markup.WrittenElement
import DashboardMarkup.Proofs.Markup.WrittenTag
import DashboardMarkup.Proofs.Query.Bindings
import DashboardMarkup.Proofs.Query.BracedBindings
import DashboardMarkup.Proofs.Query.FilterShape
import DashboardMarkup.Proofs.Query.Listed
import DashboardMarkup.Proofs.Query.WrittenFilter
import DashboardMarkup.Proofs.Style.Fields
import DashboardMarkup.Proofs.Style.Ignored
import DashboardMarkup.Proofs.Style.LastToken
import DashboardMarkup.Proofs.Style.Reread
import DashboardMarkup.Proofs.Style.Spelling
import DashboardMarkup.Proofs.Template.Meaning
import DashboardMarkup.Proofs.Template.Spelling
import DashboardMarkup.Proofs.Template.Untagged
import DashboardMarkup.Proofs.Template.Written
import DashboardMarkup.Proofs.Text.Breaks
import DashboardMarkup.Proofs.Text.Holes
import DashboardMarkup.Proofs.Text.Offset
import DashboardMarkup.Proofs.Text.Outside
import DashboardMarkup.Proofs.Text.Position
import DashboardMarkup.Proofs.Text.Respaced
import DashboardMarkup.Proofs.Text.SingleSpaced
import DashboardMarkup.Proofs.Text.Words
import DashboardMarkup.Proofs.Theme.Filled
import DashboardMarkup.Proofs.Theme.Gaps
import DashboardMarkup.Proofs.Widget.Members
import DashboardMarkup.Proofs.Widget.Merge
import DashboardMarkup.Query.DataSource
import DashboardMarkup.Query.Filter
import DashboardMarkup.Record.Canvas
import DashboardMarkup.Record.Dashboard
import DashboardMarkup.Record.Widget
import DashboardMarkup.Service.Answer
import DashboardMarkup.Style.Styling
import DashboardMarkup.Style.Token
import DashboardMarkup.Template.Expression
import DashboardMarkup.Template.Resolve
import DashboardMarkup.Template.Segment
import DashboardMarkup.Text.Alphanumeric
import DashboardMarkup.Text.Blank
import DashboardMarkup.Text.Case
import DashboardMarkup.Text.Cut
import DashboardMarkup.Text.Position
import DashboardMarkup.Text.Quoted
import DashboardMarkup.Text.Span
import DashboardMarkup.Theme.Apply
import DashboardMarkup.Theme.Table
import DashboardMarkup.Widget.Basic
import DashboardMarkup.Widget.Config
import DashboardMarkup.Widget.Kind
