/-!
# Letter case

Names and keywords of the markup are compared without regard to the case of ASCII letters. Every
other character only matches itself.

* `append_of_stripWord?`: a word found at the front of a text stands there, in any case of letters.
* `stripWord?_append`: a word that stands there is found.
-/

namespace DashboardMarkup.Text

/-- The text with every ASCII capital replaced by its small letter. -/
def lower (text : List Char) : List Char :=
  text.map Char.toLower

/-- What follows `word` at the front of a text, the case of ASCII letters aside. -/
def stripWord? : List Char → List Char → Option (List Char)
  | [], text => some text
  | _ :: _, [] => none
  | w :: ws, c :: cs => if w.toLower == c.toLower then stripWord? ws cs else none

/-- The text that a word found by `stripWord?` leaves is the end of the text it was found in. -/
theorem append_of_stripWord? {word text rest : List Char} (h : stripWord? word text = some rest) :
    ∃ found, text = found ++ rest ∧ lower found = lower word := by
  fun_induction stripWord? word text with
  | case1 text => exact ⟨[], by simp_all [lower]⟩
  | case2 => simp at h
  | case3 w ws c cs hwc ih =>
    obtain ⟨found, hf, hl⟩ := ih h
    refine ⟨c :: found, by simp [hf], ?_⟩
    have : c.toLower = w.toLower := (beq_iff_eq.1 hwc).symm
    simpa [lower, this] using hl
  | case4 => simp at h

theorem stripWord?_append (word rest : List Char) : stripWord? word (word ++ rest) = some rest := by
  induction word with
  | nil => rfl
  | cons c word ih =>
    rw [List.cons_append, stripWord?, if_pos (beq_self_eq_true _)]
    exact ih

end DashboardMarkup.Text

namespace DashboardMarkup

/-- A string with every ASCII capital replaced by its small letter. -/
def lowered (s : String) : String :=
  String.ofList (Text.lower s.toList)

/-- A string with every ASCII small letter replaced by its capital. -/
def raised (s : String) : String :=
  String.ofList (s.toList.map Char.toUpper)

end DashboardMarkup
