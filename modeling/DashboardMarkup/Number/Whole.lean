/-!
# Whole numbers in text

Counts and orders are written in ASCII digits with an optional sign and have to fit thirty-two bits.

* `ofDigits?_eq_some`: a digit text is read exactly when it is non-empty and holds digits only.
* `count?_le`: a count that is read fits.
-/

namespace DashboardMarkup.Whole

/-- The largest count. -/
def maxCount : Nat := 4294967295

/-- The value of a text of decimal digits, read from the left. -/
def value (digits : List Char) : Nat :=
  digits.foldl (fun n c => 10 * n + (c.toNat - '0'.toNat)) 0

/-- The value of a non-empty text of ASCII digits. -/
def ofDigits? (text : List Char) : Option Nat :=
  if !text.isEmpty && text.all Char.isDigit then some (value text) else none

/-- A count: digits after an optional plus sign, of a value up to `maxCount`. -/
def count? (text : List Char) : Option Nat :=
  let digits := match text with
    | '+' :: rest => rest
    | _ => text
  (ofDigits? digits).filter (· ≤ maxCount)

/-- A signed whole number of thirty-two bits: digits after an optional sign. -/
def signed? (text : List Char) : Option Int :=
  match text with
  | '-' :: rest => ((ofDigits? rest).filter (· ≤ 2147483648)).map fun n => -(n : Int)
  | '+' :: rest => ((ofDigits? rest).filter (· ≤ 2147483647)).map fun n => (n : Int)
  | _ => ((ofDigits? text).filter (· ≤ 2147483647)).map fun n => (n : Int)

theorem ofDigits?_eq_some {text : List Char} {n : Nat} :
    ofDigits? text = some n ↔ text ≠ [] ∧ (∀ c ∈ text, c.isDigit = true) ∧ value text = n := by
  simp [ofDigits?, and_assoc]

theorem count?_le {text : List Char} {n : Nat} (h : count? text = some n) : n ≤ maxCount := by
  simp only [count?, Option.filter_eq_some_iff] at h
  simpa using h.2

end DashboardMarkup.Whole
