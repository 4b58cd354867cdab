import DashboardMarkup.Json.Value

/-!
# JSON text

Two forms of text: `compact` without any blanks, and `pretty` with one element on a line, indented by
two spaces for each level. An empty array or object is `[]` or its braces in both.

In a string the quote, the backslash and the control characters are escaped; all else stands as it is.
-/

namespace DashboardMarkup.Json

/-- A digit of a code point, in small letters. -/
def hexDigit (n : Nat) : Char :=
  Nat.digitChar (n % 16)

/-- A character as it stands in a JSON string. -/
def escapeChar (c : Char) : List Char :=
  if c == '"' then ['\\', '"']
  else if c == '\\' then ['\\', '\\']
  else if c == '\x08' then ['\\', 'b']
  else if c == '\x0c' then ['\\', 'f']
  else if c == '\n' then ['\\', 'n']
  else if c == '\r' then ['\\', 'r']
  else if c == '\t' then ['\\', 't']
  else if c.toNat < 0x20 then ['\\', 'u', '0', '0', hexDigit (c.toNat / 16), hexDigit c.toNat]
  else [c]

/-- A JSON string. -/
def stringText (s : String) : List Char :=
  '"' :: (s.toList.flatMap escapeChar ++ ['"'])

/-- A value that holds no other values. -/
def scalarText : Json → List Char
  | null => "null".toList
  | bool b => if b then "true".toList else "false".toList
  | integer z => (toString z).toList
  | double x => x.write
  | string s => stringText s
  | array _ => []
  | object _ => []

mutual

/-- The text of a value without blanks. -/
def compact : Json → List Char
  | array items => '[' :: (compactItems items ++ [']'])
  | object members => '{' :: (compactMembers members ++ ['}'])
  | v => scalarText v

/-- The items of an array with commas between them. -/
def compactItems : List Json → List Char
  | [] => []
  | [v] => compact v
  | v :: vs => compact v ++ ',' :: compactItems vs

/-- The members of an object with commas between them. -/
def compactMembers : List (String × Json) → List Char
  | [] => []
  | [(k, v)] => stringText k ++ ':' :: compact v
  | (k, v) :: ms => stringText k ++ ':' :: (compact v ++ ',' :: compactMembers ms)

end

/-- A line break and the indentation of a level. -/
def lineBreak (level : Nat) : List Char :=
  '\n' :: List.replicate (2 * level) ' '

mutual

/-- The text of a value with one element on a line; its own first line is at a level already. -/
def prettyAt (level : Nat) : Json → List Char
  | array [] => ['[', ']']
  | array items => '[' :: (prettyItems (level + 1) items ++ lineBreak level ++ [']'])
  | object [] => ['{', '}']
  | object members => '{' :: (prettyMembers (level + 1) members ++ lineBreak level ++ ['}'])
  | v => scalarText v

/-- The items of an array, each on a line of its own. -/
def prettyItems (level : Nat) : List Json → List Char
  | [] => []
  | [v] => lineBreak level ++ prettyAt level v
  | v :: vs => lineBreak level ++ prettyAt level v ++ ',' :: prettyItems level vs

/-- The members of an object, each on a line of its own. -/
def prettyMembers (level : Nat) : List (String × Json) → List Char
  | [] => []
  | [(k, v)] => lineBreak level ++ stringText k ++ ':' :: ' ' :: prettyAt level v
  | (k, v) :: ms =>
    lineBreak level ++ stringText k ++ ':' :: ' ' :: (prettyAt level v ++ ',' :: prettyMembers level ms)

end

/-- The text of a value with one element on a line. -/
def pretty (v : Json) : List Char :=
  prettyAt 0 v

/-- The text of a value without blanks, as a string. -/
def text (v : Json) : String :=
  String.ofList v.compact

end DashboardMarkup.Json
