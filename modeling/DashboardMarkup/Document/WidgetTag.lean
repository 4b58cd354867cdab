import DashboardMarkup.Document.Blocks
import DashboardMarkup.Document.Measure

/-!
# Tags of widgets

A widget is an element `kpi`, `chart` or `widget`. It has to have an id and a kind, and only a key
figure has its kind from its tag; an element that lacks one of them is noted and makes no widget. All
ways of laying out read the same attributes. A grid reads the places and widths of its cells as well.
-/

namespace DashboardMarkup

open Markup

/-- The elements that make widgets. -/
def widgetNames : List String := ["kpi", "chart", "widget"]

/-- The kind that the name of an element stands for. -/
def kindOfTag (name : String) : Option WidgetKind :=
  if name == "kpi" then some .kpi else none

/-- A width in fractions of a row. -/
def fraction? (s : String) : Option String :=
  match Text.stripSuffix? "fr".toList (Text.trim s.toList) with
  | some front => if isNumber (Text.trim front) then some (trimmed s) else none
  | none => none

/-- The non-blank pieces of a text between its commas. -/
def commaList? (s : String) : Option (List String) :=
  let pieces := (s.toList.splitOn ',').filterMap fun piece =>
    nonempty? (String.ofList (Text.trim piece))
  if pieces.isEmpty then none else some pieces

namespace Widget

/-- The id and kind of the widget that an element makes. -/
def identify (e : Element) : Reading (Option (String × WidgetKind)) := do
  match e.attrs.text? "id" with
  | none =>
    Reading.note .widgetWithoutId e.start
    return none
  | some id =>
    match e.attrs.text? "type" with
    | some given =>
      match WidgetKind.ofText? given with
      | some kind => return some (id, kind)
      | none =>
        Reading.note (.unknownKind id given) e.start
        return none
    | none =>
      match kindOfTag e.name with
      | some kind => return some (id, kind)
      | none =>
        Reading.note (.widgetWithoutKind id) e.start
        return none

/-- A new widget with what every layout reads from its tag. -/
def ofTag (id : String) (kind : WidgetKind) (attrs : Attributes) : Widget :=
  { id, kind
    title := attrs.text? "title"
    order := attrs.signed? "order"
    height := attrs.count? ["height"]
    span := some (attrs.breakpoints "span" (.uniform 1))
    titlesOrder := (attrs.first? ["titles-order", "titlesOrder"]).bind commaList? }

/-- The columns that a widget of a grid begins in. -/
def gridStartOf (attrs : Attributes) (column : Option Nat) : Breakpoints (Option Nat) :=
  let shared := (attrs.positive? "col").or column
  ⟨(attrs.positive? "col-d").or shared, (attrs.positive? "col-t").or shared,
    (attrs.positive? "col-m").or shared⟩

/-- The widths of a widget of a grid. -/
def widthOf (attrs : Attributes) : Breakpoints (Option String) :=
  let at? (name : String) := (attrs.text? name).bind fraction?
  ⟨(at? "width-d").or (at? "width"), (at? "width-t").or (at? "width"),
    (at? "width-m").or (at? "width")⟩

/-- The widget that an element of a grid makes, by default in a given column. -/
def ofGridElement (doc : List Char) (column : Option Nat) (e : Element) :
    Reading (Option Widget) := do
  match ← identify e with
  | none => return none
  | some (id, kind) =>
    let w :=
      { ofTag id kind e.attrs with
        gridStart := (gridStartOf e.attrs column).nonempty?
        width := (widthOf e.attrs).nonempty? }
    return some (← w.readBlocks doc e)

/-- The widget that an element of a row makes, with the markup that stands before it. -/
def ofRowElement (doc : List Char) (row : String) (lead : Span) (e : Element) :
    Reading (Option Widget) := do
  let before := String.ofList (Text.trim (← lead.text doc))
  match ← identify e with
  | none => return none
  | some (id, kind) =>
    let w := { ofTag id kind e.attrs with row := some row, lead := nonempty? before }
    return some (← w.readBlocks doc e)

/-- The widgets that some elements of a grid make. -/
def ofGridElements (doc : List Char) (column : Option Nat) (found : List Element) :
    Reading (List Widget) := do
  let made ← found.mapM (ofGridElement doc column)
  return made.filterMap fun w => w

end Widget

end DashboardMarkup
