import DashboardMarkup.Text.Alphanumeric
import DashboardMarkup.Text.Blank
import DashboardMarkup.Text.Cut

/-!
# Assignments and outputs

What may stand inside a template tag. An assignment is the word `assign`, a name, an equals sign and a
literal; an output is a name, with an optional literal as its default. Plain blanks may stand between
the parts, and a hyphen at either end of the tag.
-/

namespace DashboardMarkup.Template

open Text

/-- Characters that a variable name is made of. -/
def isVariableChar (c : Char) : Bool :=
  isAlphanumeric c || c == '_' || c == '.' || c == '-'

/-- Characters that a literal without quotes is made of. -/
def isLiteralChar (c : Char) : Bool :=
  !isBlank c && c != '|' && c != '%' && c != '\x7d'

/-- An expression that gives a name a value. -/
structure Assignment where
  name : List Char
  value : List Char
  deriving DecidableEq, Repr

/-- An expression that stands for the value of a name. -/
structure Output where
  name : List Char
  default? : Option (List Char)
  deriving DecidableEq, Repr

/-- The text without the plain blanks before it. -/
def skipPlain (text : List Char) : List Char :=
  text.dropWhile isPlainBlank

/-- The longest run of characters of a class at the front of a text, if there is one. -/
def run? (p : Char → Bool) (text : List Char) : Option (List Char × List Char) :=
  let run := text.takeWhile p
  if run.isEmpty then none else some (run, text.dropWhile p)

/-- The literal at the front of a text, in double quotes, single quotes or none. -/
def literal? (text : List Char) : Option (List Char × List Char) :=
  (quoted? '"' text).or ((quoted? '\'' text).or (run? isLiteralChar text))

/-- The body of a tag without a hyphen at its ends. -/
def trimHyphens (body : List Char) : List Char :=
  let body := (stripPrefix? ['-'] body).getD body
  (stripSuffix? ['-'] body).getD body

/-- The assignment that the body of a tag spells. -/
def Assignment.ofBody? (body : List Char) : Option Assignment := do
  let rest ← stripPrefix? "assign".toList (skipPlain body)
  let (_, rest) ← run? isPlainBlank rest
  let (name, rest) ← run? isVariableChar rest
  let rest ← stripPrefix? ['='] (skipPlain rest)
  let (value, rest) ← literal? (skipPlain rest)
  if (skipPlain rest).isEmpty then return ⟨name, value⟩ else none

/-- The default at the front of a text: a bar, the word `default`, a colon and a literal. -/
def default? (text : List Char) : Option (List Char × List Char) := do
  let rest ← stripPrefix? ['|'] text
  let rest ← stripPrefix? "default".toList (skipPlain rest)
  let rest ← stripPrefix? [':'] (skipPlain rest)
  literal? (skipPlain rest)

/-- The output that the body of a tag spells. -/
def Output.ofBody? (body : List Char) : Option Output := do
  let (name, rest) ← run? isVariableChar (skipPlain body)
  let rest := skipPlain rest
  match Template.default? rest with
  | some (value, rest) => if (skipPlain rest).isEmpty then return ⟨name, some value⟩ else none
  | none => if rest.isEmpty then return ⟨name, none⟩ else none

end DashboardMarkup.Template
