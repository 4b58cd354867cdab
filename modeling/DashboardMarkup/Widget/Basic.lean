import DashboardMarkup.Query.DataSource
import DashboardMarkup.Style.Token
import DashboardMarkup.Widget.Config

/-!
# Widgets

A widget has an id and a kind; everything else is optional. Its styling lives in its configuration if
the kind has a place for it there, and else beside it: `mapStyling` changes it wherever it is, and
begins it where it is absent.
-/

namespace DashboardMarkup

/-- A value for each width of screen. -/
structure Breakpoints (α : Type) where
  desktop : α
  tablet : α
  mobile : α
  deriving DecidableEq, Repr

namespace Breakpoints

/-- The same value for all widths. -/
def uniform {α : Type} (a : α) : Breakpoints α :=
  ⟨a, a, a⟩

/-- Whether no width has a value. -/
def isEmpty {α : Type} (b : Breakpoints (Option α)) : Bool :=
  b.desktop.isNone && b.tablet.isNone && b.mobile.isNone

/-- The values, unless there is none. -/
def nonempty? {α : Type} (b : Breakpoints (Option α)) : Option (Breakpoints (Option α)) :=
  if b.isEmpty then none else some b

end Breakpoints

/-- One element of a dashboard. -/
structure Widget where
  id : String
  kind : WidgetKind
  title : Option String := none
  row : Option String := none
  span : Option (Breakpoints Nat) := none
  gridStart : Option (Breakpoints (Option Nat)) := none
  order : Option Int := none
  height : Option Nat := none
  width : Option (Breakpoints (Option String)) := none
  dataSource : Option DataSource := none
  config : Option Config := none
  styling : Option Styling := none
  container : Option Json.Object := none
  lead : Option String := none
  titlesOrder : Option (List String) := none

namespace Widget

/-- The configuration of a widget, begun if it is absent. -/
def configOrNew (w : Widget) : Config :=
  w.config.getD (Config.forKind w.kind)

/-- The widget with its styling changed. A configuration without a place for styling, on a widget whose
kind has one, is begun anew. -/
def mapStyling (w : Widget) (f : Styling → Styling) : Widget :=
  let beside := { w with styling := some (f (w.styling.getD {})) }
  if w.kind.showsData then
    match (w.configOrNew.mapStyling? f).or ((Config.forKind w.kind).mapStyling? f) with
    | some config => { w with config := some config }
    | none => beside
  else beside

/-- The styling of a widget, if it has been begun. -/
def styling? (w : Widget) : Option Styling :=
  if w.kind.showsData then w.config.bind Config.styling? else w.styling

/-- The widget with the members of an object laid over its configuration, which is begun even if the
members do not fit. -/
def mergeConfig (w : Widget) (patch : Json.Object) : Widget × Option Json.Mismatch :=
  match w.configOrNew.merge patch with
  | .ok config => ({ w with config := some config }, none)
  | .error mismatch => ({ w with config := some w.configOrNew }, some mismatch)

/-- The widget with some styling tokens applied. -/
def applyTokens (w : Widget) (tokens : String) : Widget :=
  w.mapStyling fun s => s.applyTokens tokens

end Widget

end DashboardMarkup
