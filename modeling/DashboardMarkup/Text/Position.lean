/-!
# Lines and columns

A position counts lines and, on its line, characters, both from one. Only a line feed ends a line.
-/

namespace DashboardMarkup

/-- A place in a document as its reader counts it. -/
structure Position where
  line : Nat
  column : Nat
  deriving DecidableEq, Repr

namespace Position

/-- The position where a document begins. -/
def origin : Position := ⟨1, 1⟩

/-- The position after a character. -/
def after (p : Position) (c : Char) : Position :=
  if c == '\n' then ⟨p.line + 1, 1⟩ else ⟨p.line, p.column + 1⟩

/-- The position reached from `p` by the characters that begin in the first `offset` bytes. -/
def advance (p : Position) : Nat → List Char → Position
  | 0, _ => p
  | _ + 1, [] => p
  | n + 1, c :: cs => (p.after c).advance (n + 1 - c.utf8Size) cs

/-- The position of a byte offset. -/
def ofOffset (text : List Char) (offset : Nat) : Position :=
  origin.advance offset text

end Position

end DashboardMarkup
