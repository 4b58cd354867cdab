import DashboardMarkup.Layout.Basic
import DashboardMarkup.Theme.Table

/-!
# Applying a theme

A theme fills what is absent and changes nothing that is there. Widgets get font, colors and corner
radius in their styling, and shadow, gradient and backdrop filter in their container style; the canvas
gets its own colors.

* `fill_fill`: what has been filled once is not filled again.
-/

namespace DashboardMarkup

/-- A value, or another one where it is absent. -/
def fill {α : Type} (value : Option α) (a : α) : Option α :=
  some (value.getD a)

theorem fill_fill {α : Type} (value : Option α) (a b : α) : fill (fill value a) b = fill value a :=
  rfl

theorem fill_some {α : Type} (a b : α) : fill (some a) b = some a :=
  rfl

namespace Theme

/-- The color of the data of a widget. -/
def seriesColor? (theme : Theme) : WidgetKind → Option String
  | .kpi => some theme.primary
  | .chart .bar => some theme.bar
  | .chart .stackedBar => some theme.bar
  | .chart .groupedBar => some theme.bar
  | .chart .pivotBar => some theme.bar
  | .chart .line => some theme.line
  | .chart .stackedLines => some theme.line
  | .chart .area => some theme.area
  | .chart .pie => some theme.primary
  | .chart .radialStacked => some theme.primary
  | .insights2 => none
  | .plain _ => none

/-- Fills the styling of a widget of a kind. -/
def fillStyling (theme : Theme) (kind : WidgetKind) (s : Styling) : Styling :=
  { s with
    titleFontFamily := fill s.titleFontFamily theme.fontFamily
    titleColor := fill s.titleColor theme.textPrimary
    backgroundColor := fill s.backgroundColor theme.surface
    borderColor := fill s.borderColor theme.border
    borderRadius := fill s.borderRadius theme.radius
    colors := s.colors.or ((theme.seriesColor? kind).map fun color => [color]) }

/-- Sets a member of an object unless it is there, or there is nothing to set. -/
def fillMember (key : String) (value : Option String) (o : Json.Object) : Json.Object :=
  match value, o.find? key with
  | some text, none => o.insert key (.string text)
  | _, _ => o

/-- Fills the container style of a widget. -/
def fillContainer (theme : Theme) (o : Json.Object) : Json.Object :=
  fillMember "backdropFilter" theme.backdrop
    (fillMember "backgroundGradient" theme.gradient (fillMember "boxShadow" (some theme.shadow) o))

/-- Fills a widget. -/
def fillWidget (theme : Theme) (w : Widget) : Widget :=
  let w := w.mapStyling (theme.fillStyling w.kind)
  { w with container := some (theme.fillContainer (w.container.getD [])) }

/-- Fills the looks of a canvas. -/
def fillCanvas (theme : Theme) (canvas : Canvas) : Canvas :=
  let s := canvas.style
  { canvas with
    style := { s with
      backgroundColor := fill s.backgroundColor theme.gridBackground
      borderColor := fill s.borderColor theme.gridBorder
      boxShadow := fill s.boxShadow theme.shadow
      backgroundGradient := s.backgroundGradient.or theme.gradient
      backdropFilter := s.backdropFilter.or theme.backdrop } }

/-- Widgets under the theme of a name; an unknown name leaves them as they are. -/
def applyToWidgets (name : String) (widgets : List Widget) : List Widget :=
  match find? name with
  | some theme => widgets.map theme.fillWidget
  | none => widgets

/-- A canvas under the theme of a name; an unknown name leaves it as it is. -/
def applyToCanvas (name : String) (canvas : Canvas) : Canvas :=
  match find? name with
  | some theme => theme.fillCanvas canvas
  | none => canvas

end Theme

end DashboardMarkup
