import DashboardMarkup.Document.Looks
import DashboardMarkup.Document.Period
import DashboardMarkup.Document.Placement
import DashboardMarkup.Template.Resolve
import DashboardMarkup.Theme.Apply

/-!
# Dashboards

The text of a dashboard is a template: its variables are resolved before anything else is read, and all
positions refer to the resolved text. The attributes of its `<dashboard>` element, its heading, its
looks, its sections and its layout are read in this order, which is also the order of the problems. The
theme comes last and fills what is still absent.

* `read`: the dashboard of a text, or the one problem that makes it unreadable.
* `parse`: the same, with an empty dashboard in place of an unreadable one.
-/

namespace DashboardMarkup

open Markup

/-- What a text describes, with everything that is wrong with it. -/
structure Dashboard where
  widgets : List Widget := []
  canvas : Canvas := {}
  problems : List Problem := []
  heading : Option Heading := none
  period : Option DateRange := none

/-- The attributes of a dashboard, the offset where it begins, and its content. -/
structure Root where
  attrs : Attributes
  start : Nat
  body : Span

namespace Root

/-- The root of a document: its first `<dashboard>` element, or the document itself. -/
def find (doc : List Char) : Except Fault Root := do
  let all : Span := ⟨0, Text.size doc⟩
  match ← findFirst doc all "dashboard" with
  | some e =>
    let body := if e.closed then e.content else ⟨e.openEnd, Text.size doc⟩
    return ⟨e.attrs, e.start, body⟩
  | none => return ⟨[], 0, all⟩

end Root

/-- The sizes of the absolute grid that attributes give. -/
def Canvas.ofAttributes (a : Attributes) : Canvas :=
  let base : Canvas := {}
  { base with
    maxRows := (a.count? ["max-rows", "maxRows"]).getD base.maxRows
    rowHeight := (a.count? ["row-height", "rowHeight"]).getD base.rowHeight
    cols := (a.count? ["cols"]).getD base.cols }

namespace Dashboard

/-- Whether nothing is wrong. -/
def isValid (d : Dashboard) : Bool :=
  d.problems.isEmpty

/-- The title. -/
def title? (d : Dashboard) : Option String :=
  (d.heading.bind Heading.title).map HeadingLine.text

/-- The subtitle. -/
def subtitle? (d : Dashboard) : Option String :=
  (d.heading.bind Heading.subtitle).map HeadingLine.text

/-- The first widget with an id. -/
def widget? (d : Dashboard) (id : String) : Option Widget :=
  d.widgets.find? (·.id == id)

/-- The messages for the problems of a kind. -/
def problemsOf (d : Dashboard) (kind : ProblemKind) : List Problem :=
  d.problems.filter (·.cause.kind == kind)

/-- The empty dashboard with one problem. -/
def ofProblem (p : Problem) : Dashboard :=
  { problems := [p] }

/-- The dashboard under the theme of a name. -/
def withTheme (d : Dashboard) (name : String) : Dashboard :=
  { d with
    widgets := Theme.applyToWidgets name d.widgets
    canvas := Theme.applyToCanvas name d.canvas }

/-- The dashboard that a document with resolved variables describes. -/
def readDocument (doc : List Char) : Reading Dashboard := do
  let root ← (Root.find doc : Except Fault Root)
  let heading ← Heading.read doc root.attrs root.start root.body
  let period ← DateRange.read root.attrs root.start heading
  let blocks ← CanvasStyle.readBlocks doc root.body
  let sections ← RowPart.ofSections doc root.body
  let mode ← Placement.readMode root.attrs root.start
  let placement ← Placement.read doc root.attrs root.body mode
  let dashboard : Dashboard :=
    { widgets := sections.flatMap RowPart.widgets ++ placement.widgets
      canvas :=
        { Canvas.ofAttributes root.attrs with
          layout := placement.layout
          sections := rowsOf sections
          style := blocks.foldl CanvasStyle.overlay (.ofAttributes root.attrs) }
      heading, period }
  let themes := (root.attrs.text? "theme").toList ++ blocks.filterMap CanvasStyle.themeOf?
  return (themes.getLast?.map dashboard.withTheme).getD dashboard

/-- Whether a document begins with a tag. -/
def isMarkup (doc : List Char) : Bool :=
  (Text.trimStart doc).head? == some '<'

/-- The dashboard that a document describes, or the problem that makes the document unreadable. -/
def ofDocument (doc : List Char) : Except Problem Dashboard :=
  if isMarkup doc then
    match readDocument doc with
    | .ok (dashboard, notes) => .ok { dashboard with problems := notes.map (Problem.ofNote doc) }
    | .error fault => .error (Problem.ofFault doc fault)
  else .error ⟨.notMarkup, Position.origin⟩

/-- The dashboard that a text describes, or the problem that makes the text unreadable. -/
def read (text : List Char) : Except Problem Dashboard :=
  ofDocument (Template.resolve text)

/-- The dashboard that a text describes; it is empty if the text is unreadable. -/
def parse (text : List Char) : Dashboard :=
  match read text with
  | .ok dashboard => dashboard
  | .error problem => ofProblem problem

end Dashboard

end DashboardMarkup
