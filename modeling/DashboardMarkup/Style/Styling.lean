import DashboardMarkup.Json.Decode

/-!
# Styling

The looks of a widget: optional settings of four kinds (switches, measures, labels, colors) and the ticks
of its bottom axis. `Field.all` lists the settings in the order in which they are written; reading and
writing JSON go through that list.
-/

namespace DashboardMarkup

/-- A setting that is on or off. -/
inductive Switch
  | showLegend
  | showGrid
  | enableGridX
  | enableGridY
  | enableArea
  | compact
  deriving DecidableEq, Repr

/-- A setting that is a number. -/
inductive Measure
  | marginBottom
  | borderRadius
  | startAngle
  | endAngle
  | innerRadius
  | outerRadius
  | cornerRadius
  | titleFontSize
  | titleMarginBottom
  | borderWidth
  deriving DecidableEq, Repr

/-- A setting that is a text. -/
inductive Label
  | layout
  | groupMode
  | titleFontFamily
  | titleColor
  | visualizationType
  | unit
  | borderVariant
  | borderColor
  | backgroundColor
  deriving DecidableEq, Repr

/-- A number that describes the ticks of an axis. -/
inductive Tick
  | size
  | padding
  | rotation
  deriving DecidableEq, Repr

/-- The ticks of the bottom axis. -/
structure Axis where
  tickSize : Option Double := none
  tickPadding : Option Double := none
  tickRotation : Option Double := none
  deriving DecidableEq, Repr

/-- The looks of a widget. -/
structure Styling where
  showLegend : Option Bool := none
  showGrid : Option Bool := none
  enableGridX : Option Bool := none
  enableGridY : Option Bool := none
  enableArea : Option Bool := none
  compact : Option Bool := none
  marginBottom : Option Double := none
  borderRadius : Option Double := none
  layout : Option String := none
  axisBottom : Option Axis := none
  groupMode : Option String := none
  colors : Option (List String) := none
  startAngle : Option Double := none
  endAngle : Option Double := none
  innerRadius : Option Double := none
  outerRadius : Option Double := none
  cornerRadius : Option Double := none
  titleFontFamily : Option String := none
  titleFontSize : Option Double := none
  titleColor : Option String := none
  titleMarginBottom : Option Double := none
  visualizationType : Option String := none
  unit : Option String := none
  borderVariant : Option String := none
  borderWidth : Option Double := none
  borderColor : Option String := none
  backgroundColor : Option String := none
  deriving DecidableEq, Repr

namespace Axis

/-- One of the numbers. -/
def get (a : Axis) : Tick → Option Double
  | .size => a.tickSize
  | .padding => a.tickPadding
  | .rotation => a.tickRotation

/-- The axis with one number changed. -/
def set (a : Axis) (x : Option Double) : Tick → Axis
  | .size => { a with tickSize := x }
  | .padding => { a with tickPadding := x }
  | .rotation => { a with tickRotation := x }

end Axis

/-- The numbers of an axis in the order in which they are written. -/
def Tick.all : List Tick := [size, padding, rotation]

/-- The key of a number of an axis. -/
def Tick.key : Tick → String
  | size => "tickSize"
  | padding => "tickPadding"
  | rotation => "tickRotation"

namespace Axis

/-- The members of the JSON object of an axis. -/
def members (a : Axis) : Json.Object :=
  Tick.all.flatMap fun t => Json.field? t.key Json.double (a.get t)

/-- Reads a member of an axis; an unknown key is passed over. -/
def setMember (key : String) (v : Json) (a : Axis) : Except Json.Mismatch Axis :=
  match Tick.all.find? (·.key == key) with
  | some t => (Json.optional Json.asDouble v).map fun x => a.set x t
  | none => .ok a

/-- Reads an axis. -/
def ofJson (surplus : Json.Surplus) (v : Json) : Except Json.Mismatch Axis :=
  Json.asRecord "AxisStyling" (Tick.all.map Tick.key) surplus setMember {} v

end Axis

namespace Styling

/-- A switch. -/
def switch (s : Styling) : Switch → Option Bool
  | .showLegend => s.showLegend
  | .showGrid => s.showGrid
  | .enableGridX => s.enableGridX
  | .enableGridY => s.enableGridY
  | .enableArea => s.enableArea
  | .compact => s.compact

/-- The styling with a switch changed. -/
def setSwitch (s : Styling) (b : Option Bool) : Switch → Styling
  | .showLegend => { s with showLegend := b }
  | .showGrid => { s with showGrid := b }
  | .enableGridX => { s with enableGridX := b }
  | .enableGridY => { s with enableGridY := b }
  | .enableArea => { s with enableArea := b }
  | .compact => { s with compact := b }

/-- A measure. -/
def measure (s : Styling) : Measure → Option Double
  | .marginBottom => s.marginBottom
  | .borderRadius => s.borderRadius
  | .startAngle => s.startAngle
  | .endAngle => s.endAngle
  | .innerRadius => s.innerRadius
  | .outerRadius => s.outerRadius
  | .cornerRadius => s.cornerRadius
  | .titleFontSize => s.titleFontSize
  | .titleMarginBottom => s.titleMarginBottom
  | .borderWidth => s.borderWidth

/-- The styling with a measure changed. -/
def setMeasure (s : Styling) (x : Option Double) : Measure → Styling
  | .marginBottom => { s with marginBottom := x }
  | .borderRadius => { s with borderRadius := x }
  | .startAngle => { s with startAngle := x }
  | .endAngle => { s with endAngle := x }
  | .innerRadius => { s with innerRadius := x }
  | .outerRadius => { s with outerRadius := x }
  | .cornerRadius => { s with cornerRadius := x }
  | .titleFontSize => { s with titleFontSize := x }
  | .titleMarginBottom => { s with titleMarginBottom := x }
  | .borderWidth => { s with borderWidth := x }

/-- A label. -/
def label (s : Styling) : Label → Option String
  | .layout => s.layout
  | .groupMode => s.groupMode
  | .titleFontFamily => s.titleFontFamily
  | .titleColor => s.titleColor
  | .visualizationType => s.visualizationType
  | .unit => s.unit
  | .borderVariant => s.borderVariant
  | .borderColor => s.borderColor
  | .backgroundColor => s.backgroundColor

/-- The styling with a label changed. -/
def setLabel (s : Styling) (t : Option String) : Label → Styling
  | .layout => { s with layout := t }
  | .groupMode => { s with groupMode := t }
  | .titleFontFamily => { s with titleFontFamily := t }
  | .titleColor => { s with titleColor := t }
  | .visualizationType => { s with visualizationType := t }
  | .unit => { s with unit := t }
  | .borderVariant => { s with borderVariant := t }
  | .borderColor => { s with borderColor := t }
  | .backgroundColor => { s with backgroundColor := t }

/-- The styling with its axis settings present. -/
def openAxis (s : Styling) : Styling :=
  { s with axisBottom := some (s.axisBottom.getD {}) }

/-- A number of the bottom axis. -/
def tick (s : Styling) (t : Tick) : Option Double :=
  s.axisBottom.bind fun a => a.get t

/-- The styling with a number of the bottom axis changed. -/
def setTick (s : Styling) (x : Option Double) (t : Tick) : Styling :=
  { s with axisBottom := some ((s.axisBottom.getD {}).set x t) }

/-- A setting of any kind. -/
inductive Field
  | switch (f : Switch)
  | measure (f : Measure)
  | label (f : Label)
  | axis
  | colors
  deriving DecidableEq, Repr

/-- The settings in the order in which they are written. -/
def Field.all : List Field :=
  [.switch .showLegend, .switch .showGrid, .switch .enableGridX, .switch .enableGridY,
    .switch .enableArea, .switch .compact, .measure .marginBottom, .measure .borderRadius,
    .label .layout, .axis, .label .groupMode, .colors, .measure .startAngle, .measure .endAngle,
    .measure .innerRadius, .measure .outerRadius, .measure .cornerRadius, .label .titleFontFamily,
    .measure .titleFontSize, .label .titleColor, .measure .titleMarginBottom,
    .label .visualizationType, .label .unit, .label .borderVariant, .measure .borderWidth,
    .label .borderColor, .label .backgroundColor]

/-- The key of a setting. -/
def Field.key : Field → String
  | .switch .showLegend => "showLegend"
  | .switch .showGrid => "showGrid"
  | .switch .enableGridX => "enableGridX"
  | .switch .enableGridY => "enableGridY"
  | .switch .enableArea => "enableArea"
  | .switch .compact => "compact"
  | .measure .marginBottom => "marginBottom"
  | .measure .borderRadius => "borderRadius"
  | .measure .startAngle => "startAngle"
  | .measure .endAngle => "endAngle"
  | .measure .innerRadius => "innerRadius"
  | .measure .outerRadius => "outerRadius"
  | .measure .cornerRadius => "cornerRadius"
  | .measure .titleFontSize => "titleFontSize"
  | .measure .titleMarginBottom => "titleMarginBottom"
  | .measure .borderWidth => "borderWidth"
  | .label .layout => "layout"
  | .label .groupMode => "groupMode"
  | .label .titleFontFamily => "titleFontFamily"
  | .label .titleColor => "titleColor"
  | .label .visualizationType => "visualizationType"
  | .label .unit => "unit"
  | .label .borderVariant => "borderVariant"
  | .label .borderColor => "borderColor"
  | .label .backgroundColor => "backgroundColor"
  | .axis => "axisBottom"
  | .colors => "colors"

/-- The setting with a key. -/
def Field.ofKey? (key : String) : Option Field :=
  Field.all.find? (·.key == key)

/-- The value of a setting as JSON. -/
def member? (s : Styling) : Field → Option Json
  | .switch f => (s.switch f).map .bool
  | .measure f => (s.measure f).map .double
  | .label f => (s.label f).map .string
  | .axis => s.axisBottom.map fun a => .object a.members
  | .colors => s.colors.map Json.strings

/-- The members of the JSON object of a styling. -/
def members (s : Styling) : Json.Object :=
  Field.all.filterMap fun f => (s.member? f).map fun v => (f.key, v)

/-- Reads the value of a setting; `null` empties it. -/
def setField (surplus : Json.Surplus) (v : Json) (s : Styling) :
    Field → Except Json.Mismatch Styling
  | .switch f => (Json.optional Json.asBool v).map fun b => s.setSwitch b f
  | .measure f => (Json.optional Json.asDouble v).map fun x => s.setMeasure x f
  | .label f => (Json.optional Json.asText v).map fun t => s.setLabel t f
  | .axis => (Json.optional (Axis.ofJson surplus) v).map fun a => { s with axisBottom := a }
  | .colors =>
    (Json.optional (Json.asList Json.asText) v).map fun cs => { s with colors := cs }

/-- Reads a member of a styling; an unknown key is passed over. -/
def setMember (surplus : Json.Surplus) (key : String) (v : Json) (s : Styling) :
    Except Json.Mismatch Styling :=
  match Field.ofKey? key with
  | some f => s.setField surplus v f
  | none => .ok s

/-- Reads a styling. -/
def ofJson (v : Json) : Except Json.Mismatch Styling :=
  Json.asRecord "Styling" (Field.all.map Field.key) .fewer (setMember .fewer) {} v

end Styling

end DashboardMarkup
