import DashboardMarkup.Json.Value
import DashboardMarkup.Text.Span

/-!
# Flaws of JSON text

Why a text is no JSON object, and how many of its bytes had been read when that came out. A message
gives the place as the line and column of the last byte read; columns count bytes.
-/

namespace DashboardMarkup.Json

/-- Why reading stopped. -/
inductive Flaw.Cause
  | endInObject
  | endInArray
  | endInString
  | endForValue
  | keyNotString
  | trailingComma
  | noColon
  | noObjectComma
  | noArrayComma
  | noValue
  | badWord
  | badNumber
  | hugeNumber
  | controlCharacter
  | badEscape
  | halfPair
  | loneSurrogate
  | tooDeep
  | trailing
  | notObject (found : Found)
  deriving DecidableEq, Repr

/-- A flaw, and the number of bytes read up to and including the one that shows it. -/
structure Flaw where
  cause : Flaw.Cause
  bytes : Nat
  deriving DecidableEq, Repr

namespace Flaw

/-- The words for a cause. -/
def Cause.text : Cause → String
  | endInObject => "EOF while parsing an object"
  | endInArray => "EOF while parsing a list"
  | endInString => "EOF while parsing a string"
  | endForValue => "EOF while parsing a value"
  | keyNotString => "key must be a string"
  | trailingComma => "trailing comma"
  | noColon => "expected `:`"
  | noObjectComma => "expected `,` or `\x7d`"
  | noArrayComma => "expected `,` or `]`"
  | noValue => "expected value"
  | badWord => "expected ident"
  | badNumber => "invalid number"
  | hugeNumber => "number out of range"
  | controlCharacter => "control character (\\u0000-\\u001F) found while parsing a string"
  | badEscape => "invalid escape"
  | halfPair => "unexpected end of hex escape"
  | loneSurrogate => "lone leading surrogate in hex escape"
  | tooDeep => "recursion limit exceeded"
  | trailing => "trailing characters"
  | notObject found => "invalid type: " ++ found.text ++ ", expected a map"

/-- The line of byte number `bytes` and the number of bytes on that line up to it, for a line number
and a column that have been reached already. -/
def place (line column : Nat) : Nat → List Char → Nat × Nat
  | 0, _ => (line, column)
  | n + 1, [] => (line, column + (n + 1))
  | n + 1, c :: cs =>
    if c == '\n' then place (line + 1) 0 n cs
    else if n + 1 < c.utf8Size then (line, column + (n + 1))
    else place line (column + c.utf8Size) (n + 1 - c.utf8Size) cs

/-- The message for a flaw of a text. -/
def message (flaw : Flaw) (text : List Char) : String :=
  let (line, column) := place 1 0 flaw.bytes text
  flaw.cause.text ++ " at line " ++ toString line ++ " column " ++ toString column

end Flaw

end DashboardMarkup.Json
