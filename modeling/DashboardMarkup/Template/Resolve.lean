import DashboardMarkup.Template.Expression
import DashboardMarkup.Template.Segment

/-!
# Resolving a template

Assignments are taken out of the whole document first, so that a variable may be used before it is
assigned; of several assignments to a name the last counts. Then every output is replaced by the value
of its name, else by its default, else by nothing. Tags that are neither stay as they are, and values
are not looked through again.
-/

namespace DashboardMarkup.Template

/-- The value of the last assignment to a name. -/
def lookup? (assignments : List Assignment) (name : List Char) : Option (List Char) :=
  (assignments.reverse.find? fun a => a.name == name).map Assignment.value

/-- The assignment in a segment. -/
def Segment.assignment? : Segment → Option Assignment
  | .plain _ => none
  | .tag body => Assignment.ofBody? (trimHyphens body)

/-- The assignments of a document, in order. -/
def assignments (text : List Char) : List Assignment :=
  (segments assignMarks text).filterMap Segment.assignment?

/-- The document without its assignments. -/
def withoutAssignments (text : List Char) : List Char :=
  (segments assignMarks text).flatMap fun s =>
    if s.assignment?.isSome then [] else s.source assignMarks

/-- The text of an output. -/
def Output.text (known : List Assignment) (output : Output) : List Char :=
  ((lookup? known output.name).or output.default?).getD []

/-- The text that a segment stands for. -/
def Segment.resolve (known : List Assignment) : Segment → List Char
  | .plain text => text
  | .tag body =>
    match Output.ofBody? (trimHyphens body) with
    | some output => output.text known
    | none => (Segment.tag body).source outputMarks

/-- The document that a template stands for. -/
def resolve (text : List Char) : List Char :=
  (segments outputMarks (withoutAssignments text)).flatMap
    (Segment.resolve (assignments text))

end DashboardMarkup.Template
