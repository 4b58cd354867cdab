import DashboardMarkup.Text.Blank
import Mathlib.Data.List.DropRight

/-!
# Blanks and words

What stands at the end of a text can be dropped, and the blanks between the words of a text.

* `append_dropEndWhile`: what is dropped at the end of a text.
* `dropEndWhile_append`: where two texts are joined, the first one is shortened if nothing is left of the second.
* `trim_eq_self`, `trim_of_no_blank`: a text between characters that are not blank is trimmed, and one without blanks.
* `trim_trim`: a text that is trimmed has no blanks around it.
* `trim_blank_append`, `trim_append_blank`: white space around a text does not count; `mem_trim`: nothing else is
  taken off.
* `words_append`: a blank stands between words.
* `words_trim`: the blanks around a text are in none of its words.
* `intercalate_modifyHead`, `not_mem_intercalate`: what is in pieces that are joined.
-/

namespace DashboardMarkup.Text

/-! ## The end of a text -/

/-- What is dropped ends before a character that is kept. -/
theorem not_of_dropWhile_eq_cons {p : Char → Bool} {s rest : List Char} {c : Char}
    (h : s.dropWhile p = c :: rest) : p c = false := by
  have hhead := List.head?_dropWhile_not p s
  rw [h] at hhead
  simpa using hhead

theorem append_dropEndWhile (p : Char → Bool) (text : List Char) :
    ∃ dropped, text = dropEndWhile p text ++ dropped ∧ ∀ c ∈ dropped, p c = true := by
  have hsplit := congrArg List.reverse
    (List.takeWhile_append_dropWhile (p := p) (l := text.reverse))
  rw [List.reverse_append, List.reverse_reverse] at hsplit
  exact ⟨_, hsplit.symm, fun c hc => List.mem_takeWhile_imp (List.mem_reverse.mp hc)⟩

theorem dropEndWhile_append (p : Char → Bool) (s t : List Char) :
    dropEndWhile p (s ++ t) = if dropEndWhile p t = [] then dropEndWhile p s else s ++ dropEndWhile p t := by
  unfold dropEndWhile
  rw [List.reverse_append, List.dropWhile_append]
  cases t.reverse.dropWhile p with
  | nil => rfl
  | cons c cs => simp

/-- Behind a character that stays, the blanks are those of the rest. -/
theorem dropEndWhile_append_last {p : Char → Bool} {c : Char} (hc : p c = false) (s t : List Char) :
    dropEndWhile p (s ++ [c] ++ t) = s ++ [c] ++ dropEndWhile p t := by
  rw [dropEndWhile_append, dropEndWhile_append_of_last s hc]
  split
  · next h => rw [h, List.append_nil]
  · rfl

theorem dropEndWhile_dropEndWhile (p : Char → Bool) (s : List Char) :
    dropEndWhile p (dropEndWhile p s) = dropEndWhile p s := by
  unfold dropEndWhile
  rw [List.reverse_reverse, List.dropWhile_idempotent]

/-! ## The blanks around a text -/

/-- A text between characters that are not blank is trimmed. -/
theorem trim_eq_self {c d : Char} (hc : isBlank c = false) (hd : isBlank d = false) (t : List Char) :
    trim (c :: (t ++ [d])) = c :: (t ++ [d]) := by
  have hstart : trimStart (c :: (t ++ [d])) = (c :: t) ++ [d] := by
    unfold trimStart
    rw [List.dropWhile_cons_of_neg (by simp [hc])]
    rfl
  unfold trim trimEnd
  rw [hstart, dropEndWhile_append_of_last _ hd]
  rfl

/-- A text without blanks is trimmed. -/
theorem trim_of_no_blank {text : List Char} (h : ∀ c ∈ text, isBlank c = false) : trim text = text := by
  have hdrop : ∀ {s : List Char}, (∀ c ∈ s, isBlank c = false) → s.dropWhile isBlank = s := fun {s} hs => by
    cases s with
    | nil => rfl
    | cons c cs => exact List.dropWhile_cons_of_neg (by simp [hs c List.mem_cons_self])
  unfold trim trimEnd dropEndWhile trimStart
  rw [hdrop h, hdrop fun c hc => h c (List.mem_reverse.mp hc), List.reverse_reverse]

/-- **A text that is trimmed has no blanks around it.** -/
theorem trim_trim (s : List Char) : trim (trim s) = trim s := by
  have hstart : trimStart (trim s) = trim s := by
    unfold trim trimEnd
    cases hs : trimStart s with
    | nil => rfl
    | cons c rest =>
      have hc : isBlank c = false := not_of_dropWhile_eq_cons hs
      have hkept := dropEndWhile_append_last hc [] rest
      rw [List.nil_append] at hkept
      rw [show c :: rest = [c] ++ rest from rfl, hkept]
      exact List.dropWhile_cons_of_neg (by simp [hc])
  have hend : trimEnd (trim s) = trim s := dropEndWhile_dropEndWhile isBlank (trimStart s)
  unfold trim at hstart hend ⊢
  rw [hstart, hend]

theorem trim_blank_append {blanks : List Char} (h : ∀ c ∈ blanks, isBlank c = true) (s : List Char) :
    trim (blanks ++ s) = trim s := by
  unfold trim trimStart
  rw [List.dropWhile_append_of_pos h]

theorem trim_space (s : List Char) : trim (' ' :: s) = trim s := by
  unfold trim trimStart
  rw [List.dropWhile_cons_of_pos (by decide)]

theorem trim_append_blank {blanks : List Char} (h : ∀ c ∈ blanks, isBlank c = true) (s : List Char) :
    trim (s ++ blanks) = trim s := by
  have hend : dropEndWhile isBlank blanks = [] := by
    unfold dropEndWhile
    rw [List.dropWhile_eq_nil_iff.mpr fun c hc => h c (List.mem_reverse.mp hc), List.reverse_nil]
  unfold trim trimEnd trimStart
  rw [List.dropWhile_append]
  split
  · next hs => rw [List.dropWhile_eq_nil_iff.mpr h, List.isEmpty_iff.mp hs]
  · rw [dropEndWhile_append, if_pos hend]

/-- Nothing but blanks is taken off. -/
theorem mem_trim {c : Char} {s : List Char} (h : c ∈ s) (hc : isBlank c = false) : c ∈ trim s := by
  obtain ⟨behind, hbehind, hblank⟩ := append_dropEndWhile isBlank (trimStart s)
  rw [← List.takeWhile_append_dropWhile (p := isBlank) (l := s)] at h
  rcases List.mem_append.mp h with h | h
  · rw [List.mem_takeWhile_imp h] at hc
    exact absurd hc (by decide)
  · rw [show s.dropWhile isBlank = trim s ++ behind from hbehind] at h
    refine (List.mem_append.mp h).resolve_right fun hmem => ?_
    rw [hblank c hmem] at hc
    exact absurd hc (by decide)

/-- Nothing but blanks is trimmed to nothing. -/
theorem isBlank_of_trim_eq_nil {s : List Char} (h : trim s = []) : ∀ c ∈ s, isBlank c = true := by
  obtain ⟨blanks, hblanks, hall⟩ := append_dropEndWhile isBlank (trimStart s)
  rw [show dropEndWhile isBlank (trimStart s) = [] from h, List.nil_append] at hblanks
  cases hs : s.dropWhile isBlank with
  | nil => exact List.dropWhile_eq_nil_iff.mp hs
  | cons c rest =>
    have hblank : isBlank c = true := hall c (by rw [← hblanks, trimStart, hs]; exact List.mem_cons_self)
    rw [not_of_dropWhile_eq_cons hs] at hblank
    exact absurd hblank (by decide)

/-! ## Words -/

theorem words_append {c : Char} (hc : isBlank c = true) (s t : List Char) :
    words (s ++ c :: t) = words s ++ words t := by
  unfold words
  rw [List.splitOnP_append_cons s t hc, List.filter_append]

theorem words_dropWhile (s : List Char) : words (s.dropWhile isBlank) = words s := by
  induction s with
  | nil => rfl
  | cons c s ih =>
    cases hc : isBlank c with
    | false => rw [List.dropWhile_cons_of_neg (by simp [hc])]
    | true =>
      rw [List.dropWhile_cons_of_pos hc, ih]
      exact (words_append hc [] s).symm

theorem words_of_blank {s : List Char} (h : ∀ c ∈ s, isBlank c = true) : words s = [] := by
  rw [← words_dropWhile, List.dropWhile_eq_nil_iff.mpr h]
  rfl

/-- **The blanks around a text are in none of its words.** -/
theorem words_trim (s : List Char) : words (trim s) = words s := by
  obtain ⟨blanks, hblanks, hall⟩ := append_dropEndWhile isBlank (trimStart s)
  have hend : words (trim s ++ blanks) = words (trim s) := by
    cases blanks with
    | nil => rw [List.append_nil]
    | cons c more =>
      rw [words_append (hall c List.mem_cons_self),
        words_of_blank fun d hd => hall d (List.mem_cons_of_mem c hd), List.append_nil]
  rw [← hend]
  unfold trim trimEnd
  rw [← hblanks]
  exact words_dropWhile s

/-- A text without blanks is one word. -/
theorem words_of_no_blank {s : List Char} (hs : s ≠ []) (h : ∀ c ∈ s, isBlank c = false) : words s = [s] := by
  unfold words
  rw [List.splitOnP_eq_singleton h]
  simp [hs]

/-! ## Pieces that are joined -/

/-- A character in front of the first piece stands in front of all. -/
theorem intercalate_modifyHead (separator : List Char) (c : Char) {pieces : List (List Char)} (h : pieces ≠ []) :
    separator.intercalate (pieces.modifyHead (c :: ·)) = c :: separator.intercalate pieces := by
  match pieces with
  | [] => exact absurd rfl h
  | [_] => simp
  | piece :: next :: pieces => simp [List.intercalate_cons_cons]

theorem not_mem_intercalate {c : Char} {separator : List Char} {pieces : List (List Char)} (hseparator : c ∉ separator)
    (h : ∀ piece ∈ pieces, c ∉ piece) : c ∉ separator.intercalate pieces := by
  induction pieces with
  | nil => exact List.not_mem_nil
  | cons piece pieces ih =>
    obtain ⟨hpiece, hpieces⟩ := List.forall_mem_cons.mp h
    cases pieces with
    | nil => simpa using hpiece
    | cons next pieces =>
      rw [List.intercalate_cons_cons]
      simp [hpiece, hseparator, ih hpieces]

end DashboardMarkup.Text
