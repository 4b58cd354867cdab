import DashboardMarkup.Layout.Basic
import DashboardMarkup.Record.Widget

/-!
# Records of canvases

The JSON form of a canvas with its layout, rows, groups and looks. Keyed rows and columns are objects
in the order of their keys.
-/

namespace DashboardMarkup

open Json (field? strings natural)

/-- The columns and gaps of a row on one width of screen. -/
def Row.cells (r : Row) (columns : Nat) : Json :=
  .object
    (("columns", natural columns) ::
      (field? "gapX" natural r.gapX ++ field? "gapY" natural r.gapY))

/-- The record of a row. -/
def Row.record (r : Row) : Json :=
  .object
    (field? "title" .string r.title ++
      [("desktop", r.cells r.columns.desktop), ("tablet", r.cells r.columns.tablet),
        ("mobile", r.cells r.columns.mobile)])

/-- The record of keyed values. -/
def Keyed.record {α : Type} (encode : α → Json) (entries : Keyed α) : Json :=
  .object (entries.map fun (key, a) => (key, encode a))

/-- The record of a group. -/
def Group.record (g : Group) : Json :=
  .object
    (("id", .string g.id) ::
      (field? "title" .string g.title ++
        [("orientation", .string g.orientation.name), ("sizing", .string g.sizing.name)] ++
        field? "columns" (Breakpoints.record natural) g.columns ++ field? "gapX" natural g.gapX ++
        field? "gapY" natural g.gapY ++ field? "style" .object g.style ++
        [("children", strings g.children)]))

/-- The record of a numbered column. -/
def Column.record (c : Column) : Json :=
  .object (("span", c.span.record natural) :: field? "label" .string c.label)

/-- The members of the record of a layout, but for its mode. -/
def Layout.members : Layout → Json.Object
  | .grid counts gapX gapY groups =>
    ("columns", counts.record natural) ::
      (field? "gapX" natural gapX ++ field? "gapY" natural gapY ++
        listField? "groups" Group.record groups)
  | .rows entries => [("rows", Keyed.record Row.record entries)]
  | .columns counts template inner =>
    ("columns", counts.record natural) ::
      (field? "columnsTemplate" (Breakpoints.partialRecord .string) template ++
        field? "columnsInner" (Keyed.record Column.record) inner)

/-- The record of a layout. -/
def Layout.record (l : Layout) : Json :=
  .object (("mode", .string l.mode.name) :: l.members)

/-- The members of the record of the looks of a canvas. -/
def CanvasStyle.members (s : CanvasStyle) : Json.Object :=
  field? "backgroundColor" .string s.backgroundColor ++
    field? "backgroundGradient" .string s.backgroundGradient ++
    field? "borderColor" .string s.borderColor ++ field? "borderWidth" .double s.borderWidth ++
    field? "borderRadius" .double s.borderRadius ++ field? "boxShadow" .string s.boxShadow ++
    field? "backdropFilter" .string s.backdropFilter ++ field? "padding" .double s.padding ++
    field? "letterSpacing" .string s.letterSpacing

/-- The record of a canvas. -/
def Canvas.record (c : Canvas) : Json :=
  .object
    ([("maxRows", natural c.maxRows), ("rowHeight", natural c.rowHeight),
        ("cols", natural c.cols), ("layout", c.layout.record)] ++
      (if c.sections.isEmpty then [] else [("layoutRows", Keyed.record Row.record c.sections)]) ++
      c.style.members)

end DashboardMarkup
