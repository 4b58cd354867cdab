import DashboardMarkup.Number.Decimal
import DashboardMarkup.Style.Styling
import DashboardMarkup.Text.Blank
import DashboardMarkup.Text.Cut

/-!
# Styling tokens

A token list sets settings one after another, from left to right. A token is a key, a colon and a
value; some keys have two parts. Keys are compared without regard to the case of letters, and a value
may hold colons. A token that is not understood sets nothing.

* `read` says what a token sets, `apply` sets it. A token for the ticks of the bottom axis makes the axis
  settings present even if it sets none of them.
-/

namespace DashboardMarkup.Token

open Text

/-- What a token sets. -/
inductive Write
  | switch (f : Switch) (value : Bool)
  | measure (f : Measure) (value : Double)
  | label (f : Label) (value : String)
  | tick (f : Tick) (value : Double)
  | color (value : String)
  deriving DecidableEq, Repr

/-- What a token says: what it sets, and whether it speaks of the bottom axis. -/
structure Reading where
  write : Option Write := none
  onAxis : Bool := false
  deriving DecidableEq, Repr

/-- The value of a switch. -/
def switchValue? (text : List Char) : Option Bool :=
  match String.ofList (lower text) with
  | "on" | "true" => some true
  | "off" | "false" => some false
  | _ => none

/-- A text without any repetitions of the unit `px` at its end. -/
def dropUnits (text : List Char) : List Char :=
  match _h : stripSuffix? ['p', 'x'] text with
  | some rest => dropUnits rest
  | none => text
termination_by text.length
decreasing_by
  rw [stripSuffix?_eq_some.1 _h, List.length_append]
  simp

/-- The value of a measure, in pixels or plain. -/
def measureValue? (text : List Char) : Option Double :=
  Double.ofText? (dropUnits text)

/-- The value of a label. -/
def labelValue? (text : List Char) : Option String :=
  if text.isEmpty then none else some (String.ofList text)

/-- A token that sets a switch. -/
def setSwitch (f : Switch) (value : List Char) : Reading :=
  { write := (switchValue? value).map (.switch f) }

/-- A token that sets a measure. -/
def setMeasure (f : Measure) (value : List Char) : Reading :=
  { write := (measureValue? value).map (.measure f) }

/-- A token that sets a label. -/
def setLabel (f : Label) (value : List Char) : Reading :=
  { write := (labelValue? value).map (.label f) }

/-- A token that sets the colors. -/
def setColor (value : List Char) : Reading :=
  { write := (labelValue? value).map .color }

/-- A token that speaks of the bottom axis. -/
def setTick (part : String) (value : List Char) : Reading :=
  let set (f : Tick) := (measureValue? value).map (Write.tick f)
  let write := match part with
    | "ticksize" => set .size
    | "tickpadding" => set .padding
    | "tickrotation" => set .rotation
    | _ => none
  { write, onAxis := true }

/-- A token whose key has two parts. -/
def readPart (key part : String) (value : List Char) : Reading :=
  match key, part with
  | "bar", "color" | "line", "color" | "pie", "color" | "area", "color" => setColor value
  | "axisbottom", part => setTick part value
  | "radial", "start" => setMeasure .startAngle value
  | "radial", "end" => setMeasure .endAngle value
  | "radial", "inner" => setMeasure .innerRadius value
  | "radial", "outer" => setMeasure .outerRadius value
  | "radial", "corner" => setMeasure .cornerRadius value
  | "title", "font" => setLabel .titleFontFamily value
  | "title", "size" => setMeasure .titleFontSize value
  | "title", "color" => setLabel .titleColor value
  | "title", "mb" => setMeasure .titleMarginBottom value
  | "kpi", "viz" => setLabel .visualizationType value
  | "kpi", "unit" => setLabel .unit value
  | "border", "variant" => setLabel .borderVariant value
  | "border", "width" => setMeasure .borderWidth value
  | "border", "color" => setLabel .borderColor value
  | _, _ => {}

/-- A token whose key has two parts, if there is a second part. -/
def readParts (key : String) (rest : List Char) : Reading :=
  match cutAt? (· == ':') rest with
  | some (part, value) => readPart key (String.ofList (lower part)) value
  | none => {}

/-- What a token says. -/
def read (token : List Char) : Reading :=
  match cutAt? (· == ':') token with
  | none => {}
  | some (key, value) =>
    match String.ofList (lower key) with
    | "legend" => setSwitch .showLegend value
    | "grid" => setSwitch .showGrid value
    | "gridx" => setSwitch .enableGridX value
    | "gridy" => setSwitch .enableGridY value
    | "area" => if value.contains ':' then readParts "area" value else setSwitch .enableArea value
    | "compact" => setSwitch .compact value
    | "mb" => setMeasure .marginBottom value
    | "radius" => setMeasure .borderRadius value
    | "layout" => setLabel .layout value
    | "group" =>
      if value == "grouped".toList || value == "stacked".toList then setLabel .groupMode value
      else {}
    | "color" => setColor value
    | "bg" => setLabel .backgroundColor value
    | key => readParts key value

end DashboardMarkup.Token

namespace DashboardMarkup.Styling

/-- The styling after something is set. Colors are replaced by the one color. -/
def write (s : Styling) : Token.Write → Styling
  | .switch f value => s.setSwitch (some value) f
  | .measure f value => s.setMeasure (some value) f
  | .label f value => s.setLabel (some value) f
  | .tick f value => s.setTick (some value) f
  | .color value => { s with colors := some [value] }

/-- The styling after a token. -/
def applyToken (s : Styling) (token : List Char) : Styling :=
  let reading := Token.read token
  let s := if reading.onAxis then s.openAxis else s
  match reading.write with
  | some w => s.write w
  | none => s

/-- The styling after a list of tokens between white space. -/
def applyTokens (s : Styling) (tokens : String) : Styling :=
  (Text.words tokens.toList).foldl applyToken s

end DashboardMarkup.Styling
