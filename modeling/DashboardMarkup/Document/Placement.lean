import DashboardMarkup.Document.Article

/-!
# Placing widgets

Each layout has its own elements that hold widgets: rows, groups on a grid, or numbered columns. On a
grid, and among columns where none is declared, widgets may also stand alone. What a layout does not
know is no more to it than text.
-/

namespace DashboardMarkup

open Markup

/-- A layout and the widgets on it. -/
structure Placement where
  layout : Layout
  widgets : List Widget

/-! ## Rows -/

/-- Elements with the gaps before them, the first of which begins at `start`. -/
def withLeads (start : Nat) : List Element → List (Span × Element)
  | [] => []
  | e :: es => (⟨start, e.start⟩, e) :: withLeads e.stop es

namespace RowPart

/-- The id of a row; a row without one is noted and numbered by its place among all rows. -/
def readId (place : Nat) (e : Element) : Reading String := do
  match e.attrs.text? "id" with
  | some id => return id
  | none =>
    let id := "row-" ++ toString place
    Reading.note (.rowWithoutId id) e.start
    return id

/-- How many columns a row has. All three counts have to be given. -/
def readColumns (id : String) (e : Element) : Reading (Breakpoints Nat) := do
  let missing := ["cols-d", "cols-t", "cols-m"].filter fun key => (e.attrs.positive? key).isNone
  let at? (key : String) := (e.attrs.positive? key).getD 1
  if !missing.isEmpty then Reading.note (.rowWithoutColumns id missing) e.start
  return ⟨at? "cols-d", at? "cols-t", at? "cols-m"⟩

/-- The row that an element makes; `place` is its place among all rows, from one. -/
def ofRow (doc : List Char) (place : Nat) (e : Element) : Reading RowPart := do
  if e.closed then
    let id ← readId place e
    let columns ← readColumns id e
    let row := Row.ofAttributes e.attrs columns (e.attrs.text? "title")
    let found ← (find doc e.content widgetNames : Except Fault (List Element))
    let widgets ← (withLeads e.content.start found).mapM fun (lead, w) =>
      Widget.ofRowElement doc id lead w
    return ⟨id, row, widgets.filterMap fun w => w⟩
  else Reading.stop (.unclosed e.name e.start)

end RowPart

namespace Placement

/-- The layout by rows. -/
def readRows (doc : List Char) (body : Span) : Reading Placement := do
  let found ← (find doc body ["row"] : Except Fault (List Element))
  let parts ← (found.zipIdx 1).mapM fun (e, place) => RowPart.ofRow doc place e
  return ⟨.rows (rowsOf parts), parts.flatMap RowPart.widgets⟩

end Placement

/-! ## Groups on a grid -/

/-- A group, unless it is passed over, and its widgets. -/
structure GroupPart where
  group : Option Group
  widgets : List Widget

namespace Group

/-- The direction that a text names. -/
def orientationOf (given : Option String) : Orientation :=
  if given.any fun s => lowered s == "vertical" then .vertical else .horizontal

/-- The way of sizing that a text names. -/
def sizingOf (given : Option String) : Sizing :=
  if given.any fun s => lowered s == "auto" then .auto else .fr

/-- A group without style and members, from the attributes of its tag, on a grid with some columns. -/
def ofAttributes (id : String) (attrs : Attributes) (columns : Breakpoints Nat) : Group where
  id := id
  title := attrs.text? "title"
  orientation := orientationOf (attrs.text? "orientation")
  sizing := sizingOf (attrs.text? "sizing")
  columns :=
    if ["cols", "cols-d", "cols-t", "cols-m"].any attrs.has then
      some (attrs.breakpoints "cols" columns)
    else none
  gapX := attrs.gapX?
  gapY := attrs.gapY?

/-- The style of a group: the objects of its style blocks, each over the one before. -/
def readStyle (doc : List Char) (id : String) (blocks : List Element) :
    Reading (Option Json.Object) := do
  let objects ← blocks.mapM ((Island.groupStyle id).readStyle doc)
  match objects.filterMap fun o => o with
  | [] => return none
  | objects => return some (objects.foldl Json.Object.overlay [])

end Group

namespace GroupPart

/-- The group that an element makes on a grid with some columns. -/
def read (doc : List Char) (columns : Breakpoints Nat) (e : Element) : Reading GroupPart := do
  if e.closed then
    match e.attrs.text? "id" with
    | none =>
      Reading.note .groupWithoutId e.start
      return ⟨none, []⟩
    | some id =>
      let found ← (find doc e.content ("style" :: widgetNames) : Except Fault (List Element))
      let style ← Group.readStyle doc id (found.filter (·.name == "style"))
      let widgets ← Widget.ofGridElements doc none (found.filter (·.name != "style"))
      let group :=
        { Group.ofAttributes id e.attrs columns with style, children := widgets.map Widget.id }
      return ⟨some group, widgets⟩
  else Reading.stop (.unclosed e.name e.start)

end GroupPart

namespace Placement

/-- How many columns a grid has. -/
def gridColumns (attrs : Attributes) : Breakpoints Nat :=
  let desktop := (attrs.positive? "cols-d").getD 12
  ⟨desktop, (attrs.positive? "cols-t").getD desktop, (attrs.positive? "cols-m").getD 1⟩

/-- The widgets in a span of a grid or of columns. -/
def readLoose (doc : List Char) (span : Span) : Reading (List Widget) := do
  let found ← (find doc span widgetNames : Except Fault (List Element))
  Widget.ofGridElements doc none found

/-- The layout on a grid, with the widgets of the groups before those outside all groups. -/
def readGrid (doc : List Char) (attrs : Attributes) (body : Span) : Reading Placement := do
  let columns := gridColumns attrs
  let found ← (find doc body ["group"] : Except Fault (List Element))
  let parts ← found.mapM (GroupPart.read doc columns)
  let loose ← (body.without (found.map Element.span)).mapM (readLoose doc)
  return {
    layout := .grid columns attrs.gapX? attrs.gapY? (parts.filterMap GroupPart.group)
    widgets := parts.flatMap GroupPart.widgets ++ loose.flatten }

end Placement

/-! ## Numbered columns -/

/-- A column, its key and its widgets. -/
structure ColumnPart where
  key : String
  column : Column
  widgets : List Widget

namespace ColumnPart

/-- The column that an element makes, if its id is a positive number. -/
def read (doc : List Char) (e : Element) : Reading (Option ColumnPart) := do
  if e.closed then
    let id := (e.attrs.text? "id").getD ""
    match Measure.positive? id with
    | none =>
      Reading.note (.columnNumber id) e.start
      return none
    | some number =>
      let column : Column :=
        ⟨e.attrs.breakpoints "cols" (.uniform 1), e.attrs.first? ["label", "title"]⟩
      let found ← (find doc e.content widgetNames : Except Fault (List Element))
      let widgets ← Widget.ofGridElements doc (some number) found
      return some ⟨toString number, column, widgets⟩
  else Reading.stop (.unclosed e.name e.start)

/-- The columns of some parts, by key. -/
def columnsOf (parts : List ColumnPart) : Keyed Column :=
  parts.foldl (fun columns p => Keyed.insert columns p.key p.column) []

end ColumnPart

namespace Placement

/-- The templates for the widths of columns. -/
def templateOf (attrs : Attributes) : Breakpoints (Option String) :=
  ⟨attrs.text? "template-d", attrs.text? "template-t", attrs.text? "template-m"⟩

/-- The layout by columns. -/
def readColumns (doc : List Char) (attrs : Attributes) (body : Span) : Reading Placement := do
  let layout := Layout.columns (attrs.breakpoints "cols" ⟨3, 2, 1⟩) (templateOf attrs).nonempty?
  let found ← (find doc body ["column"] : Except Fault (List Element))
  if found.isEmpty then return ⟨layout none, ← readLoose doc body⟩
  else
    let parts := (← found.mapM (ColumnPart.read doc)).filterMap fun p => p
    return ⟨layout (some (ColumnPart.columnsOf parts)), parts.flatMap ColumnPart.widgets⟩

/-- The mode that attributes of a dashboard name, which begins at `start`. -/
def readMode (attrs : Attributes) (start : Nat) : Reading LayoutMode := do
  match attrs.first? ["layout-mode", "layoutMode"] with
  | none => return .perRow
  | some given =>
    match LayoutMode.ofText? given with
    | some mode => return mode
    | none =>
      Reading.note (.unknownMode given) start
      return .perRow

/-- The layout of a mode. -/
def read (doc : List Char) (attrs : Attributes) (body : Span) : LayoutMode → Reading Placement
  | .perRow => readRows doc body
  | .grid => readGrid doc attrs body
  | .perColumn => readColumns doc attrs body

end Placement

end DashboardMarkup
