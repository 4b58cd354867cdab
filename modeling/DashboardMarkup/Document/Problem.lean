import DashboardMarkup.Json.Decode
import DashboardMarkup.Markup.Element
import DashboardMarkup.Text.Position
import DashboardMarkup.Widget.Kind

/-!
# Problems of a document

A document that is not markup at all, or has a fault in its structure, yields nothing but this one
problem. Everything else that is wrong is noted while reading goes on: the part at fault is passed over
or replaced by a default. A note refers to an offset, a problem to the position there.
-/

namespace DashboardMarkup

/-- How bad a problem is: nothing can be read, a part is passed over, or an old spelling is used. -/
inductive ProblemKind
  | unreadable
  | invalid
  | outdated
  deriving DecidableEq, Repr

/-- The name of a kind of problem. -/
def ProblemKind.name : ProblemKind → String
  | unreadable => "syntax"
  | invalid => "validation"
  | outdated => "warning"

/-- A place for JSON inside a document. -/
inductive Island
  | dashboardStyle
  | groupStyle (group : String)
  | widgetStyle (widget : String)
  | config (widget : String)
  deriving DecidableEq, Repr

/-- A text between double quotes, as it is. -/
def inQuotes (s : String) : String :=
  "\"" ++ s ++ "\""

/-- The words for an island. -/
def Island.text : Island → String
  | dashboardStyle => "dashboard <style>"
  | groupStyle group => "<style> of group " ++ inQuotes group
  | widgetStyle widget => "<style> of widget " ++ inQuotes widget
  | config widget => "<config> of widget " ++ inQuotes widget

/-- The words for a fault. -/
def Fault.message : Fault → String
  | unterminated name _ => "Unterminated <" ++ name ++ "> tag: missing '>'"
  | unclosed name _ => "Unclosed <" ++ name ++ "> tag: expected </" ++ name ++ ">"
  | misplaced _ => "Span outside the document or inside a character"

/-- Where a fault is. -/
def Fault.offset : Fault → Nat
  | unterminated _ start => start
  | unclosed _ start => start
  | misplaced span => span.start

/-- What is wrong. -/
inductive Cause
  /-- The document does not begin with a tag. -/
  | notMarkup
  | fault (fault : Fault)
  /-- Titles in attributes of the dashboard. -/
  | titleAttributes
  | unknownMode (mode : String)
  | malformedRange (range : String)
  /-- A custom range without its dates in attributes of their own. -/
  | rangeWithoutDates
  | malformedJson (island : Island) (reason : String)
  | rowWithoutId (given : String)
  | rowWithoutColumns (row : String) (keys : List String)
  | groupWithoutId
  | columnNumber (id : String)
  | articleWithoutId (inside : String)
  | unknownChart (article kind : String)
  | widgetWithoutId
  | widgetWithoutKind (widget : String)
  | unknownKind (widget kind : String)
  | misfitConfig (widget : String) (kind : WidgetKind) (mismatch : Json.Mismatch)
  | itemWithoutId (widget : String)
  deriving DecidableEq, Repr

namespace Cause

/-- How bad a cause is. -/
def kind : Cause → ProblemKind
  | fault _ => .unreadable
  | titleAttributes => .outdated
  | _ => .invalid

/-- The words for a cause. -/
def message : Cause → String
  | notMarkup =>
    "Only the HTML-like dashboard DSL is supported: the document must start with '<'"
  | fault f => f.message
  | titleAttributes =>
    "<dashboard title/subtitle> attributes are deprecated; use a <header> block"
  | unknownMode mode =>
    "Unknown layout-mode " ++ inQuotes mode ++ ": falling back to grid-per-row"
  | malformedRange range =>
    "Malformed custom date range " ++ inQuotes range ++ ": expected custom:START,END"
  | rangeWithoutDates => "date-type=\"custom\" needs date-start and date-end (YYYY-MM-DD)"
  | malformedJson island reason => "Invalid JSON in " ++ island.text ++ ": " ++ reason
  | rowWithoutId given => "<row> is missing an id; using " ++ inQuotes given
  | rowWithoutColumns row keys =>
    "Row " ++ inQuotes row ++ " must declare " ++ ", ".intercalate keys ++
      " with a positive integer; using 1"
  | groupWithoutId => "<group> is missing an id; group skipped"
  | columnNumber id =>
    "<column> id must be a positive integer, got " ++ inQuotes id ++ "; column skipped"
  | articleWithoutId inside =>
    "<article> in section " ++ inQuotes inside ++ " is missing an id; skipped"
  | unknownChart article kind =>
    "Article " ++ inQuotes article ++ " has unknown chart type " ++ inQuotes kind ++ "; using bar"
  | widgetWithoutId => "Widget is missing required attribute \"id\""
  | widgetWithoutKind widget =>
    "Widget " ++ inQuotes widget ++ " is missing required attribute \"type\""
  | unknownKind widget kind =>
    "Widget " ++ inQuotes widget ++ " has unknown type " ++ inQuotes kind
  | misfitConfig widget kind mismatch =>
    (Island.config widget).text ++ " does not fit a " ++ kind.name ++ " widget: " ++
      mismatch.message
  | itemWithoutId widget => "<item> in widget " ++ inQuotes widget ++ " has no id"

end Cause

/-- Something wrong, and the offset of the element that it is about. -/
structure Note where
  cause : Cause
  offset : Nat
  deriving DecidableEq, Repr

/-- Something wrong at a position. -/
structure Problem where
  cause : Cause
  position : Position
  deriving DecidableEq, Repr

namespace Problem

/-- The problem that a note on a document tells of. -/
def ofNote (doc : List Char) (note : Note) : Problem :=
  ⟨note.cause, Position.ofOffset doc note.offset⟩

/-- The problem that a fault of a document is. -/
def ofFault (doc : List Char) (fault : Fault) : Problem :=
  ⟨.fault fault, Position.ofOffset doc fault.offset⟩

/-- A problem on one line of text. -/
def text (p : Problem) : String :=
  toString p.position.line ++ ":" ++ toString p.position.column ++ ": " ++ p.cause.kind.name ++
    ": " ++ p.cause.message

end Problem

end DashboardMarkup
