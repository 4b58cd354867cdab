import DashboardMarkup.Proofs.Template.Untagged
import DashboardMarkup.Proofs.Text.Words
import DashboardMarkup.Text.Alphanumeric
import DashboardMarkup.Text.Case

/-!
# Single spaces

White space in a text may count as one space between words. A text whose white space is already that stays as it is.

* `SingleSpaced`, `Tight`: white space is single spaces, and there is none around the text.
* `Tight.squeeze_eq`: a tight text stays as it is when it is squeezed.
* `Tight.of_lower`: the case of letters does not matter.
* `isBlank_of_isAlphanumeric`: letters and numbers are not blank.
-/

namespace DashboardMarkup.Text

open Template (Lacks)

/-! ## Words and spaces -/

/-- **The white space of a text is single spaces.** -/
structure SingleSpaced (text : List Char) : Prop where
  space : ∀ c ∈ text, isBlank c = true → c = ' '
  apart : Lacks ' ' ' ' text

instance (text : List Char) : Decidable (SingleSpaced text) :=
  have : Decidable (∀ c ∈ text, isBlank c = true → c = ' ') := List.decidableBAll _ text
  decidable_of_iff ((∀ c ∈ text, isBlank c = true → c = ' ') ∧ Lacks ' ' ' ' text)
    ⟨fun h => ⟨h.1, h.2⟩, fun h => ⟨h.space, h.apart⟩⟩

/-- A text with single spaces and none around it; it is not empty. -/
structure Tight (text : List Char) : Prop extends SingleSpaced text where
  head : ∃ c ∈ text.head?, isBlank c = false
  last : ∃ c ∈ text.getLast?, isBlank c = false

variable {s t text : List Char}

/-- A character in front of a word belongs to it. -/
theorem words_cons_cons {c d : Char} (hc : isBlank c = false) (hd : isBlank d = false) (text : List Char) :
    words (c :: d :: text) = (words (d :: text)).modifyHead (c :: ·) := by
  unfold words
  rw [List.splitOnP_cons_eq_if_modifyHead, if_neg (by simp [hc]), List.splitOnP_cons_eq_if_modifyHead,
    if_neg (by simp [hd])]
  cases hsplit : text.splitOnP isBlank with
  | nil => exact absurd hsplit (List.splitOnP_ne_nil _ _)
  | cons piece pieces => rfl

/-- A text that begins with a word has one. -/
theorem words_cons_ne_nil {c : Char} (hc : isBlank c = false) (text : List Char) : words (c :: text) ≠ [] := by
  unfold words
  rw [List.splitOnP_cons_eq_if_modifyHead, if_neg (by simp [hc])]
  cases hsplit : text.splitOnP isBlank with
  | nil => exact absurd hsplit (List.splitOnP_ne_nil _ _)
  | cons piece pieces => simp

/-! ## Words with one space between -/

theorem squeeze_cons_of_blank {c : Char} (hc : isBlank c = true) (text : List Char) :
    squeeze (c :: text) = squeeze text := by
  have hwords : words (c :: text) = words text := words_append hc [] text
  unfold squeeze
  rw [hwords]

theorem squeeze_singleton {c : Char} (hc : isBlank c = false) : squeeze [c] = [c] := by
  unfold squeeze
  rw [words_of_no_blank (List.cons_ne_nil c []) (by simpa using hc)]
  rfl

theorem squeeze_cons_cons {c d : Char} (hc : isBlank c = false) (hd : isBlank d = false) (text : List Char) :
    squeeze (c :: d :: text) = c :: squeeze (d :: text) := by
  unfold squeeze
  rw [words_cons_cons hc hd, intercalate_modifyHead [' '] c (words_cons_ne_nil hd text)]

theorem squeeze_cons_space {c d : Char} (hc : isBlank c = false) (hd : isBlank d = false) (text : List Char) :
    squeeze (c :: ' ' :: d :: text) = c :: ' ' :: squeeze (d :: text) := by
  have hwords : words ([c] ++ ' ' :: d :: text) = [c] :: words (d :: text) := by
    rw [words_append (by decide), words_of_no_blank (List.cons_ne_nil c []) (by simpa using hc)]
    rfl
  unfold squeeze
  rw [show c :: ' ' :: d :: text = [c] ++ ' ' :: d :: text from rfl, hwords,
    List.intercalate_cons_of_ne_nil (words_cons_ne_nil hd text)]
  rfl

theorem SingleSpaced.of_cons {c : Char} (h : SingleSpaced (c :: text)) : SingleSpaced text :=
  ⟨fun d hd => h.space d (List.mem_cons_of_mem c hd), List.isChain_of_isChain_cons h.apart⟩

/-- Behind a space there is none. -/
theorem SingleSpaced.isBlank_second {c : Char} (h : SingleSpaced (' ' :: c :: text)) : isBlank c = false := by
  rw [← Bool.not_eq_true]
  intro hblank
  have hspace : c = ' ' := h.space c (by simp) hblank
  exact (List.isChain_cons_cons.mp h.apart).1 rfl hspace

theorem trimStart_cons_of_blank {c : Char} (hc : isBlank c = true) (text : List Char) :
    trimStart (c :: text) = trimStart text :=
  List.dropWhile_cons_of_pos hc

theorem trimStart_cons_of_not_blank {c : Char} (hc : isBlank c = false) (text : List Char) :
    trimStart (c :: text) = c :: text :=
  List.dropWhile_cons_of_neg (by simp [hc])

/-- **Words with one space between are the text**, but for white space in front, unless there is some behind. -/
theorem SingleSpaced.squeeze_eq (h : SingleSpaced text) (hlast : ∀ c ∈ text.getLast?, isBlank c = false) :
    squeeze text = trimStart text := by
  induction text with
  | nil => rfl
  | cons c text ih =>
    have hrest := ih h.of_cons
    cases hc : isBlank c with
    | true =>
      rw [squeeze_cons_of_blank hc, trimStart_cons_of_blank hc]
      cases text with
      | nil => rfl
      | cons d text => exact hrest (by simpa using hlast)
    | false =>
      rw [trimStart_cons_of_not_blank hc]
      cases text with
      | nil => exact squeeze_singleton hc
      | cons d text =>
        have hjoined := hrest (by simpa using hlast)
        cases hd : isBlank d with
        | false => rw [squeeze_cons_cons hc hd, hjoined, trimStart_cons_of_not_blank hd]
        | true =>
          -- behind a space there is a character that is none
          obtain rfl := h.space d (by simp) hd
          cases text with
          | nil => exact absurd (hlast ' ' rfl) (by decide)
          | cons e text =>
            have he := h.of_cons.isBlank_second
            rw [squeeze_cons_of_blank hd, trimStart_cons_of_blank hd, trimStart_cons_of_not_blank he] at hjoined
            rw [squeeze_cons_space hc he, hjoined]

/-! ## Tight texts -/

theorem trimStart_of_head (h : ∃ c ∈ text.head?, isBlank c = false) : trimStart text = text := by
  obtain ⟨c, hc, hblank⟩ := h
  cases text with
  | nil => exact absurd hc (by simp)
  | cons d text =>
    obtain rfl := Option.some.inj hc
    exact trimStart_cons_of_not_blank hblank text

namespace Tight

/-- **A tight text stays as it is when it is squeezed.** -/
theorem squeeze_eq (h : Tight text) : squeeze text = text := by
  obtain ⟨c, hc, hblank⟩ := h.last
  have hlast : ∀ d ∈ text.getLast?, isBlank d = false := fun d hd => by
    obtain rfl := Option.mem_unique hc hd
    exact hblank
  rw [h.toSingleSpaced.squeeze_eq hlast, trimStart_of_head h.head]

theorem of_no_blank (hne : text ≠ []) (h : ∀ c ∈ text, isBlank c = false) : Tight text where
  space c hc hblank := absurd hblank (by simp [h c hc])
  apart := Lacks.of_first fun hmem => absurd (h _ hmem) (by decide)
  head := ⟨text.head hne, List.head?_eq_some_head hne, h _ (List.head_mem hne)⟩
  last := ⟨text.getLast hne, List.getLast?_eq_some_getLast hne, h _ (List.getLast_mem hne)⟩

/-- **Tight texts with single spaces between them**, or with nothing between them. -/
theorem around {between : List Char} (hs : Tight s) (hbetween : SingleSpaced between) (ht : Tight t) :
    Tight (s ++ (between ++ t)) where
  space c hc := by
    rcases List.mem_append.mp hc with hc | hc
    · exact hs.space c hc
    · exact (List.mem_append.mp hc).elim (hbetween.space c) (ht.space c)
  apart := by
    obtain ⟨c, hc, hlast⟩ := hs.last
    obtain ⟨d, hd, hhead⟩ := ht.head
    refine Lacks.append_iff.mpr ⟨hs.apart, Lacks.append_of_second hbetween.apart ht.apart ?_, ?_⟩
    · intro hspace
      obtain rfl := Option.mem_unique hd hspace
      exact absurd hhead (by decide)
    · rintro e he - - rfl
      obtain rfl := Option.mem_unique hc he
      exact absurd hlast (by decide)
  head := by
    obtain ⟨c, hc, hblank⟩ := hs.head
    exact ⟨c, List.mem_head?_append_of_mem_head? hc, hblank⟩
  last := by
    obtain ⟨d, hd, hblank⟩ := ht.last
    exact ⟨d, List.mem_getLast?_append_of_mem_getLast? (List.mem_getLast?_append_of_mem_getLast? hd), hblank⟩

theorem append (hs : Tight s) (ht : Tight t) : Tight (s ++ t) :=
  hs.around ⟨by simp, .nil⟩ ht

theorem append_space (hs : Tight s) (ht : Tight t) : Tight (s ++ ' ' :: t) :=
  hs.around ⟨by simp, .singleton ' '⟩ ht

end Tight

/-! ## Letters -/

/-- White space has no other case. -/
theorem toLower_of_isBlank {c : Char} (h : isBlank c = true) : c.toLower = c := by
  unfold Char.toLower
  split
  · next hupper =>
    have h1 : 65 ≤ c.toNat := hupper.1
    have h2 : c.toNat ≤ 90 := hupper.2
    simp only [isBlank, Bool.or_eq_true, Bool.and_eq_true, decide_eq_true_eq, beq_iff_eq] at h
    omega
  · rfl

theorem isBlank_of_toLower {c : Char} (h : isBlank c.toLower = false) : isBlank c = false := by
  rw [← Bool.not_eq_true]
  intro hblank
  rw [toLower_of_isBlank hblank, hblank] at h
  exact absurd h (by decide)

/-- **A text is tight in any case of letters.** -/
theorem Tight.of_lower (h : Tight (lower text)) : Tight text where
  space c hc hblank := by
    have hlower := toLower_of_isBlank hblank
    rw [← hlower]
    exact h.space c.toLower (List.mem_map_of_mem hc) (by rwa [hlower])
  apart := by
    refine (List.isChain_map _ |>.mp h.apart).imp fun c d hpair hc hd => ?_
    subst hc hd
    exact hpair rfl rfl
  head := by
    obtain ⟨c, hc, hblank⟩ := h.head
    obtain ⟨d, hd, rfl⟩ := Option.map_eq_some_iff.mp ((List.head?_map).symm.trans hc)
    exact ⟨d, hd, isBlank_of_toLower hblank⟩
  last := by
    obtain ⟨c, hc, hblank⟩ := h.last
    obtain ⟨d, hd, rfl⟩ := Option.map_eq_some_iff.mp ((List.getLast?_map).symm.trans hc)
    exact ⟨d, hd, isBlank_of_toLower hblank⟩

/-- White space beyond ASCII is in no range of letters and numbers. -/
theorem alphanumericRanges_apart : ∀ r ∈ alphanumericRanges,
    (r.2 < 0x85 ∨ 0x85 < r.1) ∧ (r.2 < 0xA0 ∨ 0xA0 < r.1) ∧ (r.2 < 0x1680 ∨ 0x1680 < r.1) ∧
      (r.2 < 0x2000 ∨ 0x200A < r.1) ∧ (r.2 < 0x2028 ∨ 0x2029 < r.1) ∧ (r.2 < 0x202F ∨ 0x202F < r.1) ∧
      (r.2 < 0x205F ∨ 0x205F < r.1) ∧ (r.2 < 0x3000 ∨ 0x3000 < r.1) := by
  decide +kernel

theorem range_of_isAlphanum {c : Char} (h : c.isAlphanum = true) :
    (65 ≤ c.toNat ∧ c.toNat ≤ 90 ∨ 97 ≤ c.toNat ∧ c.toNat ≤ 122) ∨ 48 ≤ c.toNat ∧ c.toNat ≤ 57 := by
  have hkinds : (c.isUpper = true ∨ c.isLower = true) ∨ c.isDigit = true := by
    rw [← Bool.or_eq_true, ← Bool.or_eq_true]
    exact h
  rcases hkinds with (hupper | hlower) | hdigit
  · exact Or.inl (Or.inl (of_decide_eq_true hupper))
  · obtain ⟨hfirst, hlast⟩ := Bool.and_eq_true_iff.mp hlower
    exact Or.inl (Or.inr ⟨of_decide_eq_true hfirst, of_decide_eq_true hlast⟩)
  · obtain ⟨hfirst, hlast⟩ := Bool.and_eq_true_iff.mp hdigit
    exact Or.inr ⟨of_decide_eq_true hfirst, of_decide_eq_true hlast⟩

/-- **Letters and numbers are not blank.** -/
theorem isBlank_of_isAlphanumeric {c : Char} (h : isAlphanumeric c = true) : isBlank c = false := by
  rw [← Bool.not_eq_true]
  intro hblank
  simp only [isBlank, Bool.or_eq_true, Bool.and_eq_true, decide_eq_true_eq, beq_iff_eq] at hblank
  unfold isAlphanumeric at h
  split at h
  · have hrange := range_of_isAlphanum h
    omega
  · obtain ⟨r, hmem, hr⟩ := List.any_eq_true.mp h
    have hapart := alphanumericRanges_apart r hmem
    simp only [Bool.and_eq_true, decide_eq_true_eq] at hr
    omega

end DashboardMarkup.Text
