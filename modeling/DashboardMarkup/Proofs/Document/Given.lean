import DashboardMarkup.Document.Measure
import DashboardMarkup.Proofs.Text.Words
import Mathlib.Data.Nat.Digits.Defs

/-!
# What attributes give

Most readers of attributes take a value without the blanks around it, and pass over one that is blank. A text
that is written without such blanks is read as it is, and so is a count.

* `Solid`: a text that is read as it is.
* `solid_toString`, `count?_toString`: so is a count, which is read as the number.
* `first?_of_get?`, `count?_of_get?`, `positive?_of_get?`: what a list of attributes gives for a name.
-/

namespace DashboardMarkup

open Text

/-- A text that is not empty and has no blanks around it. -/
def Solid (s : String) : Prop :=
  trimmed s = s ∧ s ≠ ""

instance (s : String) : Decidable (Solid s) :=
  inferInstanceAs (Decidable (_ ∧ _))

/-- A text that is trimmed is read as it is unless it is empty. -/
theorem solid_trimmed {s : String} (h : trimmed s ≠ "") : Solid (trimmed s) := by
  refine ⟨?_, h⟩
  unfold trimmed
  rw [String.toList_ofList, trim_trim]

/-! ## Counts -/

theorem toList_toString (n : Nat) : (toString n).toList = Nat.toDigits 10 n := by
  rw [Nat.toString_eq_ofList_toDigits, String.toList_ofList]

theorem isDigit_of_mem_toString {n : Nat} {c : Char} (h : c ∈ (toString n).toList) : c.isDigit = true := by
  rw [toList_toString] at h
  exact Nat.isDigit_of_mem_toDigits (by decide) (by decide) h

theorem isBlank_of_isDigit {c : Char} (h : c.isDigit = true) : isBlank c = false := by
  have hrange : 48 ≤ c.toNat ∧ c.toNat ≤ 57 := by
    simpa [Char.isDigit, UInt32.le_iff_toNat_le] using h
  unfold isBlank
  simp only [Bool.or_eq_false_iff, Bool.and_eq_false_iff, decide_eq_false_iff_not, beq_eq_false_iff_ne]
  omega

theorem toString_ne_empty (n : Nat) : toString n ≠ "" := fun h => by
  have hlist := congrArg String.toList h
  rw [toList_toString] at hlist
  exact absurd hlist Nat.toDigits_ne_nil

/-- **A count is written without blanks.** -/
theorem solid_toString (n : Nat) : Solid (toString n) := by
  refine ⟨?_, toString_ne_empty n⟩
  unfold trimmed
  rw [trim_of_no_blank fun c hc => isBlank_of_isDigit (isDigit_of_mem_toString hc), String.ofList_toList]

namespace Whole

theorem value_toDigits (n : Nat) : value (Nat.toDigits 10 n) = n := by
  unfold value
  rw [← Nat.ofDigitChars_eq_foldl]
  exact Nat.ofDigitChars_ten_toDigits

/-- **A count that is written is read**, if it fits. -/
theorem count?_toDigits {n : Nat} (h : n ≤ maxCount) : count? (Nat.toDigits 10 n) = some n := by
  have hdigit : ∀ c ∈ Nat.toDigits 10 n, c.isDigit = true := fun c hc =>
    Nat.isDigit_of_mem_toDigits (by decide) (by decide) hc
  have hread : ofDigits? (Nat.toDigits 10 n) = some n :=
    ofDigits?_eq_some.mpr ⟨Nat.toDigits_ne_nil, hdigit, value_toDigits n⟩
  unfold count?
  split
  · next rest hplus =>
    exact absurd (hdigit '+' (by rw [hplus]; exact List.mem_cons_self)) (by decide)
  · simp only [hread, Option.filter_some]
    exact if_pos (by simpa using h)

end Whole

namespace Measure

/-- Likewise among measures, since digits are no unit. -/
theorem count?_toString {n : Nat} (h : n ≤ Whole.maxCount) : count? (toString n) = some n := by
  have hlist : trim (toString n).toList = Nat.toDigits 10 n := by
    rw [← toList_toString, trim_of_no_blank fun c hc => isBlank_of_isDigit (isDigit_of_mem_toString hc)]
  have hunit : stripSuffix? "px".toList (Nat.toDigits 10 n) = none := by
    refine Option.eq_none_iff_forall_ne_some.mpr fun rest hrest => ?_
    have hmem : 'x' ∈ Nat.toDigits 10 n := by
      rw [stripSuffix?_eq_some.mp hrest]
      exact List.mem_append_right _ (by decide)
    exact absurd (Nat.isDigit_of_mem_toDigits (by decide) (by decide) hmem) (by decide)
  unfold count? withoutUnit
  simp only [hlist, hunit, Option.getD_none]
  rw [toList_toString] at hlist
  rw [hlist]
  exact Whole.count?_toDigits h

theorem positive?_toString {n : Nat} (hpos : 0 < n) (h : n ≤ Whole.maxCount) :
    positive? (toString n) = some n := by
  unfold positive?
  rw [count?_toString h, Option.filter_some, if_pos (by simpa using hpos)]

end Measure

/-! ## Attributes -/

namespace Attributes

variable {attrs : Attributes} {name value : String}

/-- **A text is given as it is written.** -/
theorem first?_of_get? (h : attrs.get? name = some value) (hvalue : Solid value) (more : List String) :
    attrs.first? (name :: more) = some value := by
  unfold first?
  rw [List.filterMap_cons_some (b := value) (by rw [h, Option.map_some, hvalue.1])]
  exact List.find?_cons_of_pos (by simpa using hvalue.2)

theorem first?_of_get?_none (h : attrs.get? name = none) (more : List String) :
    attrs.first? (name :: more) = attrs.first? more := by
  unfold first?
  rw [List.filterMap_cons_none (by rw [h, Option.map_none])]

theorem text?_of_get? (h : attrs.get? name = some value) (hvalue : Solid value) :
    attrs.text? name = some value :=
  first?_of_get? h hvalue []

theorem text?_of_get?_none (h : attrs.get? name = none) : attrs.text? name = none :=
  first?_of_get?_none h []

/-- **So is a count.** -/
theorem count?_of_get? {n : Nat} (h : attrs.get? name = some (toString n)) (hn : n ≤ Whole.maxCount)
    (more : List String) : attrs.count? (name :: more) = some n := by
  unfold count?
  rw [first?_of_get? h (solid_toString n), Option.bind_some, Measure.count?_toString hn]

theorem positive?_of_get? {n : Nat} (h : attrs.get? name = some (toString n)) (hpos : 0 < n)
    (hn : n ≤ Whole.maxCount) : attrs.positive? name = some n := by
  unfold positive?
  rw [text?_of_get? h (solid_toString n), Option.bind_some, Measure.positive?_toString hpos hn]

theorem positive?_of_get?_none (h : attrs.get? name = none) : attrs.positive? name = none := by
  unfold positive?
  rw [text?_of_get?_none h, Option.bind_none]

/-- **A text that is given is read as it is.** -/
theorem solid_of_first? {names : List String} (h : attrs.first? names = some value) : Solid value := by
  have hmem := List.mem_of_find?_eq_some h
  obtain ⟨other, -, hother⟩ := List.mem_filterMap.mp hmem
  obtain ⟨given, -, rfl⟩ := Option.map_eq_some_iff.mp hother
  exact solid_trimmed (by simpa using List.find?_some h)

/-- A list that gives something is not empty. -/
theorem ne_nil_of_first? {names : List String} (h : attrs.first? names = some value) : attrs ≠ [] := by
  rintro rfl
  obtain ⟨other, -, hother⟩ := List.mem_filterMap.mp (List.mem_of_find?_eq_some h)
  cases hother

theorem solid_of_text? (h : attrs.text? name = some value) : Solid value :=
  solid_of_first? h

end Attributes

end DashboardMarkup
