import DashboardMarkup.Document.Period
import DashboardMarkup.Edit.Change
import DashboardMarkup.Layout.Basic

/-!
# Groups, figures and charts for a document

New groups go before the end of the dashboard, new widgets before the end of their group. Both are
written on lines of their own, widgets with a data source and styling tokens. The dashboard itself has
attributes that can be set.
-/

namespace DashboardMarkup.Edit

open Markup

/-- A group to be written. Its title is its id unless another one is given. -/
structure NewGroup where
  id : String
  title : Option String := none
  orientation : Orientation := .horizontal
  sizing : Sizing := .fr
  columns : Nat := 12
  gapX : Nat := 16
  gapY : Nat := 16
  style : Option Json.Object := none

/-- A query to be written. -/
structure NewQuery where
  schema : Option String := none
  table : Option String := none
  dimension : Option String := none
  measure : Option String := none
  aggregate : Option String := none
  deriving DecidableEq, Repr

/-- A key figure to be written. Its title is its id unless another one is given. -/
structure NewKpi where
  id : String
  title : Option String := none
  unit : Option String := none
  height : Nat := 150
  width : String := "1fr"
  query : NewQuery := {}
  tokens : Option String := none
  deriving DecidableEq, Repr

/-- A chart to be written. Its title is its id unless another one is given. -/
structure NewChart where
  id : String
  title : Option String := none
  kind : String := "bar"
  height : Nat := 360
  width : String := "1fr"
  query : NewQuery := {}
  tokens : Option String := none
  deriving DecidableEq, Repr

/-- A text, unless it is blank. -/
def nonblank? (s : String) : Option String :=
  if trimmed s == "" then none else some s

/-- A list of one attribute, or none. -/
def attribute? (name : String) (value : Option String) : Attributes :=
  (value.map fun v => (⟨name, v⟩ : Attribute)).toList

/-- Writes a text at an offset. -/
def insertAt (doc : List Char) (offset : Nat) (text : List Char) : Edited (List Char) :=
  Splice.apply doc ⟨⟨offset, offset⟩, text⟩

namespace NewQuery

/-- The expression for the measure. A text with a parenthesis is one already. -/
def measureText (q : NewQuery) : Option String :=
  q.measure.bind fun m =>
    if m.toList.contains '(' then some (trimmed m) else DataSource.measureOf? m q.aggregate

/-- The attributes of the data source, without or with its dimension. -/
def attrs (q : NewQuery) (withDimension : Bool) : Attributes :=
  let (schema, table) := DataSource.splitTable q.schema q.table
  let dimension := if withDimension then q.dimension.bind nonblank? else none
  attribute? "schema" schema ++ attribute? "table" table ++ attribute? "dimension" dimension ++
    attribute? "measure" q.measureText

end NewQuery

/-- The lines of a widget with its data source and styling tokens. -/
def widgetLines (name : String) (attrs query : Attributes) (tokens : String) : List Char :=
  "\n    ".toList ++ renderOpen name { attrs, selfClosing := false } ++
    "\n      ".toList ++ selfClosingTag "datasource" query ++
    "\n      ".toList ++ selfClosingTag "styling" [⟨"tw", tokens⟩] ++
    "\n    ".toList ++ renderClose name ++ ['\n']

namespace NewKpi

/-- The styling tokens, with one for the unit. -/
def allTokens (k : NewKpi) : String :=
  " ".intercalate
    ((k.tokens.bind nonblank?).toList ++ (k.unit.map fun u => "kpi:unit:" ++ u).toList)

/-- The lines of a key figure. -/
def lines (k : NewKpi) : List Char :=
  widgetLines "kpi"
    [⟨"id", k.id⟩, ⟨"width", k.width⟩, ⟨"height", toString k.height⟩,
      ⟨"title", k.title.getD k.id⟩]
    (k.query.attrs false) k.allTokens

end NewKpi

/-- The lines of a chart. -/
def NewChart.lines (c : NewChart) : List Char :=
  widgetLines "chart"
    [⟨"id", c.id⟩, ⟨"type", c.kind⟩, ⟨"width", c.width⟩, ⟨"height", toString c.height⟩,
      ⟨"title", c.title.getD c.id⟩]
    (c.query.attrs true) (c.tokens.getD "")

namespace NewGroup

/-- The style block of a group on a line of its own; nothing for an empty style. -/
def styleLine (g : NewGroup) : List Char :=
  match g.style with
  | none => []
  | some [] => []
  | some style => "\n    ".toList ++ styleBlock style

/-- The attributes of a group. -/
def attrs (g : NewGroup) : Attributes :=
  [⟨"id", g.id⟩, ⟨"title", g.title.getD g.id⟩, ⟨"sizing", g.sizing.name⟩,
    ⟨"orientation", g.orientation.name⟩, ⟨"cols-d", toString g.columns⟩,
    ⟨"gap-x", toString g.gapX⟩, ⟨"gap-y", toString g.gapY⟩]

/-- The lines of a group. -/
def lines (g : NewGroup) : List Char :=
  "\n  ".toList ++ renderOpen "group" { attrs := g.attrs, selfClosing := false } ++ g.styleLine ++
    "\n  ".toList ++ renderClose "group" ++ ['\n']

end NewGroup

/-- The root element of a document. -/
def rootElement (doc : List Char) : Except Fault (Option Element) :=
  findFirst doc ⟨0, Text.size doc⟩ "dashboard"

/-- The offset where a new group goes: the end of the content of the dashboard, or behind its tag, or
the end of the document. -/
def groupOffset (doc : List Char) : Nat :=
  match rootElement doc with
  | .ok (some e) => (e.inner?.map Span.stop).getD e.openEnd
  | _ => Text.size doc

/-- Adds a group unless one with its id is there, and says whether it did. -/
def ensureGroup (doc : List Char) (g : NewGroup) : Edited (List Char × Bool) := do
  match elementsById doc ["group"] g.id with
  | .error (.misplaced span) => .error span
  | .error _ => return (doc, false)
  | .ok [] => return (← insertAt doc (groupOffset doc) g.lines, true)
  | .ok _ => return (doc, false)

/-- The splices that add lines to the first group with an id, behind its widgets. The close tag of the
group keeps its own line. -/
def linesPlan (doc : List Char) (id : String) (lines : List Char) : Except Fault (List Splice) := do
  match ← elementById doc ["group"] id with
  | none => return []
  | some group =>
    match group.inner? with
    | none => insertChild doc group .last lines
    | some inner =>
      let before ← (⟨0, inner.stop⟩ : Span).text doc
      let kept := Text.dropEndWhile Text.isLineBlank before
      let blanks := before.drop kept.length
      return [⟨⟨inner.stop - Text.size blanks, inner.stop⟩, lines ++ blanks⟩]

/-- The splices that add a key figure to the first group with an id. -/
def insertKpiPlan (doc : List Char) (group : String) (k : NewKpi) : Except Fault (List Splice) :=
  linesPlan doc group k.lines

/-- Adds a key figure to the first group with an id. -/
def insertKpi (doc : List Char) (group : String) (k : NewKpi) : Edited (List Char) :=
  Splice.carryOut doc (insertKpiPlan doc group k)

/-- The splices that add a chart to the first group with an id. -/
def insertChartPlan (doc : List Char) (group : String) (c : NewChart) : Except Fault (List Splice) :=
  linesPlan doc group c.lines

/-- Adds a chart to the first group with an id. -/
def insertChart (doc : List Char) (group : String) (c : NewChart) : Edited (List Char) :=
  Splice.carryOut doc (insertChartPlan doc group c)

/-! ## The dashboard itself -/

/-- What is to be set on the dashboard. -/
structure DashboardChange where
  title : Option String := none
  subtitle : Option String := none
  theme : Option String := none
  period : Option DateRange := none
  deriving DecidableEq, Repr

/-- The change that sets an attribute, if there is a value for it. -/
def change? (name : String) (value : Option String) : List Attributes.Change :=
  (value.map fun v => Attributes.Change.set name v).toList

namespace DashboardChange

/-- The changes for a period. A custom one sets its dates, unless they are empty; a preset drops the
dates that are there. -/
def ofPeriod (r : DateRange) : List Attributes.Change :=
  if r.kind == "custom" then
    .set "date-type" "custom" :: (change? "date-start" (r.start.bind nonempty?) ++
      change? "date-end" (r.stop.bind nonempty?))
  else if r.kind == "" then []
  else [.set "date-type" r.kind, .drop "date-start", .drop "date-end"]

/-- The changes to the attributes of the dashboard. -/
def changes (c : DashboardChange) : List Attributes.Change :=
  change? "title" c.title ++ change? "subtitle" c.subtitle ++ change? "theme" c.theme ++
    (c.period.map ofPeriod).getD []

end DashboardChange

/-- The splices that set attributes of the dashboard. -/
def setDashboardPlan (doc : List Char) (c : DashboardChange) : Except Fault (List Splice) := do
  return (← rootElement doc).toList.map fun e => retag e c.changes

/-- Sets attributes of the dashboard. -/
def setDashboard (doc : List Char) (c : DashboardChange) : Edited (List Char) :=
  Splice.carryOut doc (setDashboardPlan doc c)

end DashboardMarkup.Edit
