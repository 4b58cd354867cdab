import DashboardMarkup.Document.Measure
import DashboardMarkup.Document.Reading
import DashboardMarkup.Markup.Content

/-!
# Headings

The heading of a dashboard has a title, a subtitle and perhaps a date picker. It stands in a `<header>`
element, whose first two paragraphs are the title lines. Attributes of the dashboard may give titles as
well, which is outdated and counts only where there is no such element.
-/

namespace DashboardMarkup

open Markup

/-- How a line of a heading is set. -/
structure Typography where
  fontFamily : Option String := none
  fontSize : Option Double := none
  fontWeight : Option String := none
  color : Option String := none
  letterSpacing : Option String := none
  lineHeight : Option String := none
  marginTop : Option Double := none
  marginBottom : Option Double := none
  textAlign : Option String := none
  textTransform : Option String := none
  deriving DecidableEq, Repr

/-- A line of a heading. -/
structure HeadingLine where
  text : String
  typography : Typography := {}
  deriving DecidableEq, Repr

/-- A control to choose a range of dates. -/
structure DatePicker where
  visible : Bool
  kind : Option String := none
  start : Option String := none
  stop : Option String := none
  label : Option String := none
  align : Option String := none
  showPresets : Option Bool := none
  deriving DecidableEq, Repr

/-- The heading of a dashboard. -/
structure Heading where
  title : Option HeadingLine := none
  subtitle : Option HeadingLine := none
  backgroundColor : Option String := none
  align : Option String := none
  datePicker : Option DatePicker := none
  deriving DecidableEq, Repr

/-- The typography that the attributes of a paragraph give. -/
def Typography.ofAttributes (a : Attributes) : Typography where
  fontFamily := a.first? ["font-family", "fontFamily"]
  fontSize := a.number? ["font-size", "fontSize"]
  fontWeight := a.first? ["font-weight", "fontWeight"]
  color := a.text? "color"
  letterSpacing := a.first? ["letter-spacing", "letterSpacing"]
  lineHeight := a.first? ["line-height", "lineHeight"]
  marginTop := a.number? ["margin-top", "marginTop"]
  marginBottom := a.number? ["margin-bottom", "marginBottom"]
  textAlign := a.first? ["align", "text-align", "textAlign"]
  textTransform := a.first? ["text-transform", "textTransform"]

/-- The line that a paragraph makes. -/
def HeadingLine.ofElement (doc : List Char) (e : Element) : Except Fault HeadingLine := do
  return ⟨String.ofList (visible (← e.innerText doc)), .ofAttributes e.attrs⟩

/-- The date picker that the attributes of its tag describe. -/
def DatePicker.ofAttributes (a : Attributes) : DatePicker where
  visible := !(a.text? "visible").any fun v => v == "false" || v == "off" || v == "0"
  kind := a.first? ["type", "default"]
  start := a.first? ["start", "start-date", "startDate"]
  stop := a.first? ["end", "end-date", "endDate"]
  label := a.text? "label"
  align := a.text? "align"
  showPresets := (a.first? ["show-presets", "showPresets"]).map fun v =>
    v == "true" || v == "on" || v == "1"

namespace Heading

/-- The heading in a `<header>` element. -/
def ofElement (doc : List Char) (e : Element) : Except Fault Heading := do
  let paragraphs ← find doc e.content ["p"]
  let lines ← paragraphs.mapM (HeadingLine.ofElement doc)
  let pickers ← find doc e.content ["daterange", "datepicker"]
  return {
    title := lines[0]?
    subtitle := lines[1]?
    backgroundColor := e.attrs.first? ["background-color", "backgroundColor"]
    align := e.attrs.first? ["align", "text-align"]
    datePicker := pickers.head?.map fun p => .ofAttributes p.attrs }

/-- The heading that attributes of the dashboard give. -/
def ofTitles (title subtitle : Option String) : Heading where
  title := title.map fun t => { text := t }
  subtitle := subtitle.map fun t => { text := t }

/-- The heading of a dashboard with some attributes, which begins at `start`. -/
def read (doc : List Char) (attrs : Attributes) (start : Nat) (body : Span) :
    Reading (Option Heading) := do
  match ← (findFirst doc body "header" : Except Fault (Option Element)) with
  | some e =>
    if e.closed then
      let heading ← (ofElement doc e : Except Fault Heading)
      return some heading
    else Reading.stop (.unclosed e.name e.start)
  | none =>
    let title := attrs.text? "title"
    let subtitle := attrs.text? "subtitle"
    if title.isNone && subtitle.isNone then return none
    else
      Reading.note .titleAttributes start
      return some (ofTitles title subtitle)

end Heading

end DashboardMarkup
