import DashboardMarkup.Document.Island
import DashboardMarkup.Document.Measure
import DashboardMarkup.Layout.Basic

/-!
# Looks of the canvas

The looks of the canvas come from attributes of the dashboard, and over these from the `<style>` blocks
of the dashboard itself, in order. A block may also name the theme. Blocks inside a part of the
dashboard belong to that part.
-/

namespace DashboardMarkup

open Markup

namespace CanvasStyle

/-- The looks that attributes give. -/
def ofAttributes (a : Attributes) : CanvasStyle where
  backgroundColor := a.first? ["background-color", "backgroundColor"]
  borderColor := a.first? ["border-color", "borderColor"]
  borderWidth := a.number? ["border-width", "borderWidth"]
  borderRadius := a.number? ["border-radius", "borderRadius"]
  boxShadow := a.first? ["box-shadow", "boxShadow", "shadow"]
  padding := a.number? ["padding"]
  letterSpacing := a.first? ["letter-spacing", "letterSpacing"]

/-- A text among the looks: a string that is not blank, or a number as it is written. -/
def textOf? : Json → Option String
  | .string s => if trimmed s == "" then none else some s
  | .integer z => some (toString z)
  | .double x => some (String.ofList x.write)
  | _ => none

/-- A number among the looks, which may be written in a string. -/
def numberOf? : Json → Option Double
  | .integer z => some (.ofInt z)
  | .double x => some x
  | .string s => Measure.number? s
  | _ => none

/-- The looks with those of an object over them. Of two spellings of a key the first that is there
counts. -/
def overlay (s : CanvasStyle) (o : Json.Object) : CanvasStyle :=
  let text (keys : List String) := (keys.findSome? o.find?).bind textOf?
  let number (keys : List String) := (keys.findSome? o.find?).bind numberOf?
  { backgroundColor := (text ["backgroundColor", "background-color"]).or s.backgroundColor
    backgroundGradient :=
      (text ["backgroundGradient", "background-gradient"]).or s.backgroundGradient
    borderColor := (text ["borderColor", "border-color"]).or s.borderColor
    borderWidth := (number ["borderWidth", "border-width"]).or s.borderWidth
    borderRadius := (number ["borderRadius", "border-radius"]).or s.borderRadius
    boxShadow := (text ["boxShadow", "box-shadow"]).or s.boxShadow
    backdropFilter := (text ["backdropFilter", "backdrop-filter"]).or s.backdropFilter
    padding := (number ["padding"]).or s.padding
    letterSpacing := (text ["letterSpacing", "letter-spacing"]).or s.letterSpacing }

/-- The elements among which the style blocks of a dashboard are looked for. -/
def scopeNames : List String :=
  ["style", "group", "row", "kpi", "chart", "widget", "section", "article", "column", "header"]

/-- The objects in the style blocks of a dashboard. -/
def readBlocks (doc : List Char) (body : Span) : Reading (List Json.Object) := do
  let found ← (find doc body scopeNames : Except Fault (List Element))
  let objects ← (found.filter (·.name == "style")).mapM (Island.dashboardStyle.readStyle doc)
  return objects.filterMap fun o => o

/-- The theme that an object of a style block names. -/
def themeOf? (o : Json.Object) : Option String :=
  match o.find? "theme" with
  | some (.string name) => some name
  | _ => none

end CanvasStyle

end DashboardMarkup
