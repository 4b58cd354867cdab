import DashboardMarkup.Layout.Keyed
import DashboardMarkup.Widget.Basic

/-!
# Layouts

The canvas of a dashboard and the ways of placing widgets on it: on one grid with groups, in rows, or
in columns. Exactly one of them is in use. Sections are rows that stand beside any of them.
-/

namespace DashboardMarkup

/-- A row: how many columns it has on each width of screen, and the gaps between its cells. -/
structure Row where
  title : Option String := none
  columns : Breakpoints Nat
  gapX : Option Nat := none
  gapY : Option Nat := none
  deriving DecidableEq, Repr

/-- The direction of a group. -/
inductive Orientation
  | horizontal
  | vertical
  deriving DecidableEq, Repr

/-- The name of a direction. -/
def Orientation.name : Orientation → String
  | horizontal => "horizontal"
  | vertical => "vertical"

/-- How the members of a group get their widths. -/
inductive Sizing
  | fr
  | auto
  deriving DecidableEq, Repr

/-- The name of a way of sizing. -/
def Sizing.name : Sizing → String
  | fr => "fr"
  | auto => "auto"

/-- A cluster of widgets on a grid. -/
structure Group where
  id : String
  title : Option String := none
  orientation : Orientation := .horizontal
  sizing : Sizing := .fr
  columns : Option (Breakpoints Nat) := none
  gapX : Option Nat := none
  gapY : Option Nat := none
  style : Option Json.Object := none
  children : List String := []

/-- A numbered column. -/
structure Column where
  span : Breakpoints Nat
  label : Option String := none
  deriving DecidableEq, Repr

/-- A way of placing widgets. -/
inductive Layout
  | grid (columns : Breakpoints Nat) (gapX gapY : Option Nat) (groups : List Group)
  | rows (rows : Keyed Row)
  | columns (columns : Breakpoints Nat) (template : Option (Breakpoints (Option String)))
      (inner : Option (Keyed Column))

/-- The ways of placing widgets, by name. -/
inductive LayoutMode
  | grid
  | perRow
  | perColumn
  deriving DecidableEq, Repr

namespace LayoutMode

/-- The name of a mode. -/
def name : LayoutMode → String
  | grid => "grid"
  | perRow => "grid-per-row"
  | perColumn => "grid-per-column"

/-- The mode that a text names, in any case of letters. -/
def ofText? (text : String) : Option LayoutMode :=
  match lowered (trimmed text) with
  | "grid" => some grid
  | "grid-per-row" | "rows" => some perRow
  | "grid-per-column" | "columns" => some perColumn
  | _ => none

end LayoutMode

namespace Layout

/-- The mode of a layout. -/
def mode : Layout → LayoutMode
  | grid .. => .grid
  | rows .. => .perRow
  | columns .. => .perColumn

/-- The rows of a layout by rows. -/
def rows? : Layout → Option (Keyed Row)
  | rows entries => some entries
  | _ => none

/-- The groups of a grid. -/
def groups? : Layout → Option (List Group)
  | grid _ _ _ groups => some groups
  | _ => none

/-- The numbered columns of a layout by columns, if any are declared. -/
def inner? : Layout → Option (Keyed Column)
  | columns _ _ inner => inner
  | _ => none

end Layout

/-- The looks of the canvas. -/
structure CanvasStyle where
  backgroundColor : Option String := none
  backgroundGradient : Option String := none
  borderColor : Option String := none
  borderWidth : Option Double := none
  borderRadius : Option Double := none
  boxShadow : Option String := none
  backdropFilter : Option String := none
  padding : Option Double := none
  letterSpacing : Option String := none
  deriving DecidableEq, Repr

/-- The canvas of a dashboard: the sizes of its absolute grid, its layout, the rows of its sections and
its looks. -/
structure Canvas where
  maxRows : Nat := 12
  rowHeight : Nat := 30
  cols : Nat := 12
  layout : Layout := .rows []
  sections : Keyed Row := []
  style : CanvasStyle := {}

end DashboardMarkup
