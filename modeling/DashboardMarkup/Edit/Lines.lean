import DashboardMarkup.Edit.Splice
import DashboardMarkup.Text.Blank

/-!
# Lines around an edit

New elements are indented like their neighbours. An element that is removed takes with it the
indentation before it and the line break behind it, and of several blank lines in a row one is left.
-/

namespace DashboardMarkup.Text

/-- Blanks inside a line. -/
def isLineBlank (c : Char) : Bool :=
  c == ' ' || c == '\t'

/-- The indentation at the end of a text, if nothing else stands on its last line. -/
def indentOf (before : List Char) : List Char :=
  let line := (before.reverse.takeWhile (· != '\n')).reverse
  if line.all isLineBlank then line else []

/-- The number of bytes up to and including the line break at the front of a text, if only blanks stand
before it. -/
def breakSize (behind : List Char) : Nat :=
  let blanks := behind.takeWhile isLineBlank
  match behind.dropWhile isLineBlank with
  | '\r' :: '\n' :: _ => size blanks + 2
  | '\n' :: _ => size blanks + 1
  | _ => 0

/-- A text without the line breaks that follow two others with only white space between them; `breaks`
counts those that went before. -/
def collapseBreaks (breaks : Nat) : List Char → List Char
  | [] => []
  | c :: cs =>
    if c == '\n' then
      if 2 ≤ breaks then collapseBreaks (breaks + 1) cs else c :: collapseBreaks (breaks + 1) cs
    else c :: collapseBreaks (if isBlank c then breaks else 0) cs

end DashboardMarkup.Text

namespace DashboardMarkup

/-- The indentation before an offset, if nothing else stands before it on its line. -/
def indentAt (doc : List Char) (offset : Nat) : Except Fault (List Char) := do
  return Text.indentOf (← (⟨0, offset⟩ : Span).text doc)

/-- A span with the indentation before it and the line break behind it. -/
def Span.wholeLines (span : Span) (doc : List Char) : Except Fault Span :=
  match span.around? doc with
  | some (before, behind) =>
    .ok ⟨span.start - Text.size (Text.indentOf before), span.stop + Text.breakSize behind⟩
  | none => .error (.misplaced span)

end DashboardMarkup
