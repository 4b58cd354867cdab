import DashboardMarkup.Text.Alphanumeric
import DashboardMarkup.Text.Blank
import DashboardMarkup.Text.Case
import DashboardMarkup.Text.Cut

/-!
# Filters

A filter text is a list of rules between semicolons, all of which have to hold. A rule names a column
and a condition on it: a comparison with a value, a pattern, a list of values, or a range. Values may
stand in quotes. A rule that is none of these is left out.

The form of a condition is its type: an operator comes with exactly the operands it needs, and every
operand that is read is non-empty.
-/

namespace DashboardMarkup

/-- An operator between a column and one value. -/
inductive Comparison
  | ne
  | ge
  | le
  | eq
  | gt
  | lt
  deriving DecidableEq, Repr

/-- The operators in the order in which they are tried: one that begins with another comes first. -/
def Comparison.all : List Comparison := [ne, ge, le, eq, gt, lt]

/-- An operator as it is written. -/
def Comparison.sign : Comparison → String
  | ne => "!="
  | ge => ">="
  | le => "<="
  | eq => "="
  | gt => ">"
  | lt => "<"

/-- What a column has to satisfy. -/
inductive Condition
  | compare (op : Comparison) (value : String)
  | like (pattern : String)
  | among (values : List String)
  | notAmong (values : List String)
  | between (start stop : String)
  deriving DecidableEq, Repr

/-- A rule for the rows of a query. -/
structure Filter where
  column : String
  condition : Condition
  deriving DecidableEq, Repr

namespace Filter

open Text

/-- Whether a text is in a pair of equal quotes. -/
def isQuoted (text : List Char) : Bool :=
  2 ≤ text.length &&
    ((text.head? == some '"' && text.getLast? == some '"') ||
      (text.head? == some '\'' && text.getLast? == some '\''))

/-- A text without the white space around it, and then without a pair of quotes around it. -/
def unquote (text : List Char) : List Char :=
  let text := trim text
  if isQuoted text then (text.drop 1).dropLast else text

/-- An operand: unquoted, and not empty. -/
def operand? (text : List Char) : Option String :=
  let value := unquote text
  if value.isEmpty then none else some (String.ofList value)

/-- Characters that a column name begins with. -/
def isColumnStart (c : Char) : Bool :=
  c.isAlpha || c == '_'

/-- Characters that a column name goes on with. -/
def isColumnChar (c : Char) : Bool :=
  isAlphanumeric c || c == '_' || c == '.' || c == '-'

/-- The column name at the front of a rule, and the text after it. -/
def column? : List Char → Option (List Char × List Char)
  | [] => none
  | c :: cs =>
    if isColumnStart c then some (c :: cs.takeWhile isColumnChar, cs.dropWhile isColumnChar)
    else none

/-- What follows a keyword, in any case of letters, with a space or a parenthesis behind it. -/
def keyword? (word : String) (text : List Char) : Option (List Char) :=
  (stripWord? word.toList text).filter fun rest =>
    rest.head? == some ' ' || rest.head? == some '('

/-- The operands between parentheses and commas; at least one. -/
def list? (text : List Char) : Option (List String) := do
  let inside ← stripPrefix? ['('] (trimStart text)
  let inside ← stripSuffix? [')'] inside
  let values := (inside.splitOn ',').filterMap operand?
  if values.isEmpty then none else return values

/-- The condition that compares with a value. -/
def comparison? (text : List Char) : Option Condition :=
  let text := trimStart text
  Comparison.all.findSome? (fun op => (stripPrefix? op.sign.toList text).map fun rest => (op, rest))
    |>.bind fun (op, rest) => (operand? rest).map (Condition.compare op)

/-- The condition of a range, behind its keyword. -/
def range? (text : List Char) : Option Condition := do
  let (start, stop) ← cut? ['.', '.'] (trimStart text)
  return .between (← operand? start) (← operand? stop)

/-- The condition behind a column name. A keyword decides the form of the condition. -/
def condition? (text : List Char) : Option Condition :=
  match stripPrefix? [' '] text with
  | none => comparison? text
  | some after =>
    match keyword? "not in" after, keyword? "in" after, keyword? "between" after,
      keyword? "like" after with
    | some rest, _, _, _ => (list? rest).map .notAmong
    | none, some rest, _, _ => (list? rest).map .among
    | none, none, some rest, _ => range? rest
    | none, none, none, some rest => (operand? rest).map .like
    | none, none, none, none => comparison? text

/-- The filter that a rule spells. White space in a rule counts as one space. -/
def ofRule? (rule : List Char) : Option Filter := do
  let (column, rest) ← column? (squeeze rule)
  return ⟨String.ofList column, ← condition? rest⟩

/-- The filters that a text spells. -/
def readAll (text : List Char) : List Filter :=
  (text.splitOn ';').filterMap ofRule?

end Filter

end DashboardMarkup
