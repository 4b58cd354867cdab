import DashboardMarkup.Document.Heading
import DashboardMarkup.Text.Cut

/-!
# Periods

The period that a dashboard shows at first: the name of a preset, or a custom range with its two dates.
Attributes of the dashboard win over the date picker of its heading. Dates are checked by their form
only.
-/

namespace DashboardMarkup

/-- A named period, or the custom one with its first and last day. -/
structure DateRange where
  kind : String
  start : Option String := none
  stop : Option String := none
  deriving DecidableEq, Repr

/-- Whether a text has the form of a date: four, two and two digits with hyphens between them. -/
def isDate (text : List Char) : Bool :=
  match Text.trim text with
  | [a, b, c, d, '-', e, f, '-', g, h] => [a, b, c, d, e, f, g, h].all Char.isDigit
  | _ => false

namespace DateRange

/-- The custom range between two dates; none if one of the texts is no date. -/
def custom? (start stop : String) : Option DateRange :=
  if isDate start.toList && isDate stop.toList then
    some ⟨"custom", some (trimmed start), some (trimmed stop)⟩
  else none

/-- The range that two dates around a comma spell. -/
def ofPair? (text : List Char) : Option DateRange :=
  (Text.cut? [','] text).bind fun (start, stop) =>
    custom? (String.ofList start) (String.ofList stop)

/-- The range that attributes of a dashboard give, of which `given` names the period. -/
def ofAttributes (attrs : Attributes) (start : Nat) (given : String) :
    Reading (Option DateRange) := do
  match Text.stripPrefix? "custom:".toList given.toList with
  | some dates =>
    match ofPair? dates with
    | some range => return some range
    | none =>
      Reading.note (.malformedRange given) start
      return none
  | none =>
    if given == "custom" then
      let range := do
        custom? (← attrs.first? ["date-start", "dateStart"]) (← attrs.first? ["date-end", "dateEnd"])
      match range with
      | some range => return some range
      | none =>
        Reading.note .rangeWithoutDates start
        return none
    else return some { kind := given }

/-- The range that a date picker begins with. -/
def ofPicker? (picker : DatePicker) : Option DateRange :=
  picker.kind.map fun kind => ⟨kind, picker.start, picker.stop⟩

/-- The period of a dashboard with some attributes and a heading, which begins at `start`. -/
def read (attrs : Attributes) (start : Nat) (heading : Option Heading) :
    Reading (Option DateRange) :=
  match attrs.first? ["date-type", "data-type", "dateType"] with
  | some given => ofAttributes attrs start given
  | none => return (heading.bind Heading.datePicker).bind ofPicker?

end DateRange

end DashboardMarkup
