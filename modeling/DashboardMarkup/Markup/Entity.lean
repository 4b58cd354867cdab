import DashboardMarkup.Text.Cut

/-!
# Character entities

Five characters have names that stand for them in attribute values and in text. Two of these, the
ampersand and the double quote, are written by name inside a quoted attribute value.

* `decode_escape`: a value reads back as it was before it was escaped.
-/

namespace DashboardMarkup.Entity

open Text (stripPrefix?)

/-- The names that are understood, each with its character. Names are case-sensitive. -/
def names : List (List Char × Char) :=
  [("&quot;".toList, '"'), ("&#34;".toList, '"'), ("&#39;".toList, '\''), ("&apos;".toList, '\''),
    ("&lt;".toList, '<'), ("&gt;".toList, '>'), ("&amp;".toList, '&')]

/-- The character named at the front of a text, and the text after the name. -/
def read? (text : List Char) : Option (Char × List Char) :=
  names.findSome? fun (name, c) => (stripPrefix? name text).map fun rest => (c, rest)

theorem length_read?_lt {text rest : List Char} {c : Char} (h : read? text = some (c, rest)) :
    rest.length < text.length := by
  obtain ⟨⟨name, d⟩, hmem, hd⟩ := List.exists_of_findSome?_eq_some h
  simp only [Option.map_eq_some_iff, Prod.mk.injEq] at hd
  obtain ⟨r, hr, -, rfl⟩ := hd
  rw [Text.stripPrefix?_eq_some.1 hr, List.length_append]
  have : 0 < name.length := by
    simp only [names, List.mem_cons, Prod.mk.injEq, List.not_mem_nil, or_false] at hmem
    rcases hmem with ⟨rfl, -⟩ | ⟨rfl, -⟩ | ⟨rfl, -⟩ | ⟨rfl, -⟩ | ⟨rfl, -⟩ | ⟨rfl, -⟩ | ⟨rfl, -⟩ <;>
      decide
  omega

/-- The text with every named character in place of its name. An ampersand that begins no name stands
for itself. -/
def decode (text : List Char) : List Char :=
  match text with
  | [] => []
  | c :: cs =>
    match _h : read? (c :: cs) with
    | some (d, rest) => d :: decode rest
    | none => c :: decode cs
termination_by text.length
decreasing_by
  · exact length_read?_lt _h
  · simp

/-- A character as it stands inside double quotes. -/
def escapeChar (c : Char) : List Char :=
  if c == '&' then "&amp;".toList else if c == '"' then "&quot;".toList else [c]

/-- A text as it stands inside double quotes. -/
def escape (text : List Char) : List Char :=
  text.flatMap escapeChar

theorem read?_of_ne {c : Char} (cs : List Char) (h : c ≠ '&') : read? (c :: cs) = none := by
  have hc : ('&' == c) = false := by simpa using h.symm
  simp [read?, names, stripPrefix?, hc]

theorem read?_amp (rest : List Char) : read? ("&amp;".toList ++ rest) = some ('&', rest) := by
  simp [read?, names, stripPrefix?]

theorem read?_quot (rest : List Char) : read? ("&quot;".toList ++ rest) = some ('"', rest) := by
  simp [read?, names, stripPrefix?]

theorem decode_of_read? {text rest : List Char} {c : Char} (h : read? text = some (c, rest)) :
    decode text = c :: decode rest := by
  cases text with
  | nil => exact absurd (length_read?_lt h) (Nat.not_lt_zero _)
  | cons d ds =>
    rw [decode]
    split
    · next e r he => simp_all
    · simp_all

theorem decode_cons_of_ne {c : Char} (cs : List Char) (h : c ≠ '&') :
    decode (c :: cs) = c :: decode cs := by
  rw [decode]
  split
  · next e r he => simp [read?_of_ne cs h] at he
  · rfl

theorem decode_escape (text : List Char) : decode (escape text) = text := by
  induction text with
  | nil => simp [escape, decode]
  | cons c cs ih =>
    have hcons : escape (c :: cs) = escapeChar c ++ escape cs := by simp [escape]
    rw [hcons, escapeChar]
    split
    · next h => rw [decode_of_read? (read?_amp _), ih, beq_iff_eq.1 h]
    · next h =>
      split
      · next hq => rw [decode_of_read? (read?_quot _), ih, beq_iff_eq.1 hq]
      · rw [List.singleton_append, decode_cons_of_ne _ (by simpa using h), ih]

end DashboardMarkup.Entity
