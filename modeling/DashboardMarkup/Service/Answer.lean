import DashboardMarkup.Edit.Insert
import DashboardMarkup.Json.Printer
import DashboardMarkup.Record.Dashboard

/-!
# Answers in plain text

The entry points for a caller that knows nothing but texts: structured answers are JSON without blanks,
edited documents are themselves.
-/

namespace DashboardMarkup

/-- How much is to be logged. -/
inductive LogLevel
  | off
  | error
  | warn
  | info
  | debug
  | trace
  deriving DecidableEq, Repr

namespace LogLevel

/-- All levels. -/
def all : List LogLevel := [off, error, warn, info, debug, trace]

/-- The name of a level. -/
def name : LogLevel → String
  | off => "OFF"
  | error => "ERROR"
  | warn => "WARN"
  | info => "INFO"
  | debug => "DEBUG"
  | trace => "TRACE"

/-- The level that a text names, in any case of letters. Warnings are logged if it names none. -/
def ofText (text : String) : LogLevel :=
  (all.find? fun level => raised text == level.name).getD warn

end LogLevel

namespace Service

/-- The dashboard of a text. -/
def parse (source : String) : String :=
  (Dashboard.parse source.toList).record.text

/-- The findings about the dashboard of a text. -/
def findings (source : String) : String :=
  (Dashboard.parse source.toList).findingsRecord.text

/-- The document with an attribute of widgets and groups set. -/
def setAttribute (source id name value : String) : Edited String :=
  (Edit.setAttribute source.toList id name value).map String.ofList

/-- The document with the styling tokens of a widget set. -/
def setTokens (source id tokens : String) : Edited String :=
  (Edit.setTokens source.toList id tokens).map String.ofList

/-- The document with the theme of the dashboard set. -/
def setTheme (source theme : String) : Edited String :=
  (Edit.setDashboard source.toList { theme := some theme }).map String.ofList

/-- A document from which something was removed, and how many elements that were. -/
def removal (doc : List Char) (count : Nat) : String :=
  (Json.object [("code", .string (String.ofList doc)), ("removed", .natural count)]).text

/-- The document without the widgets that have an id. -/
def removeWidget (source id : String) : Edited String :=
  (Edit.removeWidget source.toList id).map fun (doc, count) => removal doc count

/-- The document without the groups that have an id. -/
def removeGroup (source id : String) : Edited String :=
  (Edit.removeGroup source.toList id).map fun (doc, count) => removal doc count

/-- The names of all themes. -/
def themeNames : String :=
  (Json.strings (Theme.all.map Theme.name)).text

end Service

end DashboardMarkup
