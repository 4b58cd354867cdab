import DashboardMarkup.Edit.Lines
import DashboardMarkup.Markup.Content
import DashboardMarkup.Proofs.Markup.Step

/-!
# Superfluous line breaks

A removal leaves out line breaks that follow others with only white space between them, and it does so in
the whole document. `Text.Respaced` relates two texts that differ by nothing else. It says so symmetrically:
either text may have the breaks that the other one lacks.

* `respaced_collapseBreaks`: a text and what is left of it.
* `Respaced.append_inv`: up to the first line break, both texts are the same.
* `Respaced.trim`, `Respaced.words`, `Respaced.decode`: what is trimmed, split or decoded.
* `visible_respaced`: a reader sees the same text.
-/

namespace DashboardMarkup.Text

/-- Whether a line break stands in the run of blanks that ends with a character, if one may have stood in
that run before it. -/
def breakSeen (seen : Bool) (c : Char) : Bool :=
  c == '\n' || (isBlank c && seen)

/-- **Two texts that differ by line breaks which follow others in a run of blanks.** `seen` tells whether a
line break stands in the run before them. -/
inductive Respaced : Bool → List Char → List Char → Prop
  | nil (seen : Bool) : Respaced seen [] []
  | keep {seen : Bool} {c : Char} {s t : List Char} : Respaced (breakSeen seen c) s t →
      Respaced seen (c :: s) (c :: t)
  | left {s t : List Char} : Respaced true s t → Respaced true ('\n' :: s) t
  | right {s t : List Char} : Respaced true s t → Respaced true s ('\n' :: t)

theorem breakSeen_of_not_blank {c : Char} (hc : isBlank c = false) (seen : Bool) :
    breakSeen seen c = false := by
  have hne : c ≠ '\n' := by
    rintro rfl
    exact absurd hc (by decide)
  simp [breakSeen, hc, hne]

namespace Respaced

variable {seen : Bool} {s t : List Char}

protected theorem refl (seen : Bool) (t : List Char) : Respaced seen t t := by
  induction t generalizing seen with
  | nil => exact .nil seen
  | cons c cs ih => exact .keep (ih _)

protected theorem symm (h : Respaced seen s t) : Respaced seen t s := by
  induction h with
  | nil seen => exact .nil seen
  | keep _ ih => exact .keep ih
  | left _ ih => exact .right ih
  | right _ ih => exact .left ih

/-- A break before the texts allows for more. -/
theorem weaken (h : Respaced seen s t) {seen' : Bool} (hle : seen = true → seen' = true) :
    Respaced seen' s t := by
  induction h generalizing seen' with
  | nil => exact .nil seen'
  | @keep seen c s t _ ih =>
    refine .keep (ih fun hc => ?_)
    unfold breakSeen at hc ⊢
    cases seen with
    | false => simpa using Or.inl (by simpa using hc)
    | true => rwa [hle rfl]
  | left h _ =>
    rw [hle rfl]
    exact .left h
  | right h _ =>
    rw [hle rfl]
    exact .right h

theorem nil_inv (h : Respaced false [] t) : t = [] := by
  cases h
  rfl

/-- Unless a break stands before them, both texts begin with the same character. -/
theorem cons_inv {c : Char} (h : Respaced false (c :: s) t) :
    ∃ t', t = c :: t' ∧ Respaced (c == '\n') s t' := by
  cases h with
  | keep h =>
    refine ⟨_, rfl, ?_⟩
    unfold breakSeen at h
    rwa [Bool.and_false, Bool.or_false] at h

theorem head?_eq (h : Respaced false s t) : t.head? = s.head? := by
  cases h with
  | nil => rfl
  | keep => rfl

/-- **Up to the first line break both texts are the same.** -/
theorem append_inv {front : List Char} (h : Respaced false (front ++ s) t) (hfront : '\n' ∉ front) :
    ∃ t', t = front ++ t' ∧ Respaced false s t' := by
  induction front generalizing t with
  | nil => exact ⟨t, rfl, h⟩
  | cons c front ih =>
    obtain ⟨t', rfl, hrest⟩ := h.cons_inv
    have hc : (c == '\n') = false := by
      rw [beq_eq_false_iff_ne]
      rintro rfl
      exact hfront List.mem_cons_self
    rw [hc] at hrest
    obtain ⟨t'', rfl, hmore⟩ := ih hrest fun hmem => hfront (List.mem_cons_of_mem c hmem)
    exact ⟨t'', rfl, hmore⟩

/-! ## Blanks at the ends -/

/-- Without the blanks of a class at the front, both texts are empty or begin with the same character. -/
theorem dropWhile {p : Char → Bool} (hp : p '\n' = true) (h : Respaced seen s t) :
    (s.dropWhile p = [] ∧ t.dropWhile p = []) ∨
      ∃ c s' t' seen', s.dropWhile p = c :: s' ∧ t.dropWhile p = c :: t' ∧ p c = false ∧
        Respaced (breakSeen seen' c) s' t' := by
  induction h with
  | nil => exact Or.inl ⟨rfl, rfl⟩
  | @keep seen c s t h ih =>
    cases hc : p c with
    | true =>
      rw [List.dropWhile_cons_of_pos hc, List.dropWhile_cons_of_pos hc]
      exact ih
    | false =>
      have hneg : ¬p c = true := by simp [hc]
      rw [List.dropWhile_cons_of_neg hneg, List.dropWhile_cons_of_neg hneg]
      exact Or.inr ⟨c, s, t, seen, rfl, rfl, hc, h⟩
  | left _ ih =>
    rw [List.dropWhile_cons_of_pos hp]
    exact ih
  | right _ ih =>
    rw [List.dropWhile_cons_of_pos hp]
    exact ih

theorem trimStart (h : Respaced seen s t) : Respaced false (trimStart s) (trimStart t) := by
  unfold Text.trimStart
  rcases h.dropWhile (p := isBlank) rfl with ⟨hs, ht⟩ | ⟨c, s', t', seen', hs, ht, hc, h⟩
  · rw [hs, ht]
    exact .nil false
  · rw [breakSeen_of_not_blank hc] at h
    rw [hs, ht]
    refine .keep ?_
    rw [breakSeen_of_not_blank hc]
    exact h

end Respaced

theorem dropEndWhile_cons (p : Char → Bool) (c : Char) (cs : List Char) :
    dropEndWhile p (c :: cs) =
      if (dropEndWhile p cs).isEmpty = true ∧ p c = true then [] else c :: dropEndWhile p cs := by
  unfold dropEndWhile
  rw [List.reverse_cons, List.dropWhile_append, List.isEmpty_reverse]
  cases cs.reverse.dropWhile p with
  | nil => by_cases hc : p c = true <;> simp [hc]
  | cons d ds => simp

namespace Respaced

variable {seen : Bool} {s t : List Char}

theorem trimEnd (h : Respaced seen s t) :
    ((trimEnd s).isEmpty = (trimEnd t).isEmpty) ∧ Respaced seen (trimEnd s) (trimEnd t) := by
  unfold Text.trimEnd
  have hbreak : isBlank '\n' = true := rfl
  induction h with
  | nil seen => exact ⟨rfl, .nil seen⟩
  | @keep seen c s t h ih =>
    obtain ⟨hempty, ih⟩ := ih
    rw [dropEndWhile_cons, dropEndWhile_cons, hempty]
    split
    · exact ⟨rfl, .nil seen⟩
    · exact ⟨rfl, .keep ih⟩
  | @left s t h ih =>
    obtain ⟨hempty, ih⟩ := ih
    rw [dropEndWhile_cons]
    split
    · next hall =>
      rw [hempty, List.isEmpty_iff] at hall
      rw [hall.1]
      exact ⟨rfl, .nil true⟩
    · next hsome =>
      rw [hbreak, hempty, and_iff_left rfl, Bool.not_eq_true] at hsome
      exact ⟨hsome.symm, .left ih⟩
  | @right s t h ih =>
    obtain ⟨hempty, ih⟩ := ih
    rw [dropEndWhile_cons]
    split
    · next hall =>
      rw [← hempty, List.isEmpty_iff] at hall
      rw [hall.1]
      exact ⟨rfl, .nil true⟩
    · next hsome =>
      rw [hbreak, ← hempty, and_iff_left rfl, Bool.not_eq_true] at hsome
      exact ⟨hsome, .right ih⟩

theorem trim (h : Respaced seen s t) : Respaced false (trim s) (trim t) :=
  h.trimStart.trimEnd.2

/-! ## Words -/

/-- The words of both texts are the same. Unless a break stands before them, so are their first pieces,
which may end a word that began before. -/
theorem splitOnP (h : Respaced seen s t) :
    (s.splitOnP isBlank).filter (!·.isEmpty) = (t.splitOnP isBlank).filter (!·.isEmpty) ∧
      (seen = false → (s.splitOnP isBlank).head? = (t.splitOnP isBlank).head?) := by
  have hdrop : ∀ u : List Char, (('\n' :: u).splitOnP isBlank).filter (!·.isEmpty) =
      (u.splitOnP isBlank).filter (!·.isEmpty) := by
    intro u
    have hbreak : isBlank '\n' = true := rfl
    rw [List.splitOnP_cons_eq_if_modifyHead, if_pos hbreak]
    rfl
  induction h with
  | nil => exact ⟨rfl, fun _ => rfl⟩
  | @keep seen c s t h ih =>
    rw [List.splitOnP_cons_eq_if_modifyHead, List.splitOnP_cons_eq_if_modifyHead]
    cases hc : isBlank c with
    | true =>
      rw [if_pos rfl, if_pos rfl]
      exact ⟨ih.1, fun _ => rfl⟩
    | false =>
      obtain ⟨hall, hhead⟩ := ih
      have hhead := hhead (breakSeen_of_not_blank hc seen)
      rw [if_neg Bool.false_ne_true, if_neg Bool.false_ne_true]
      cases hs : s.splitOnP isBlank with
      | nil => exact absurd hs (List.splitOnP_ne_nil isBlank s)
      | cons a as =>
        cases ht : t.splitOnP isBlank with
        | nil => exact absurd ht (List.splitOnP_ne_nil isBlank t)
        | cons b bs =>
          rw [hs, ht] at hall hhead
          obtain rfl : a = b := Option.some.inj hhead
          have hrest : as.filter (!·.isEmpty) = bs.filter (!·.isEmpty) := by
            rw [List.filter_cons, List.filter_cons] at hall
            split at hall
            · exact (List.cons.inj hall).2
            · exact hall
          refine ⟨?_, fun _ => rfl⟩
          simp [hrest]
  | left _ ih =>
    rw [hdrop]
    exact ⟨ih.1, fun hseen => absurd hseen (by simp)⟩
  | right _ ih =>
    rw [hdrop]
    exact ⟨ih.1, fun hseen => absurd hseen (by simp)⟩

theorem words (h : Respaced seen s t) : words s = words t :=
  h.splitOnP.1

end Respaced

/-! ## What is left of a text -/

/-- **A text, and what is left of it without its superfluous breaks.** -/
theorem respaced_collapseBreaks (breaks : Nat) (text : List Char) :
    Respaced (decide (0 < breaks)) text (collapseBreaks breaks text) := by
  induction text generalizing breaks with
  | nil => exact .nil _
  | cons c cs ih =>
    unfold collapseBreaks
    by_cases hc : c = '\n'
    · subst hc
      have hseen : ∀ seen, breakSeen seen '\n' = decide (0 < breaks + 1) := fun seen => by
        simp [breakSeen]
      simp only [beq_self_eq_true, if_true]
      split
      · next hle =>
        have hpos : decide (0 < breaks) = true := by simp; omega
        rw [hpos]
        refine .left ?_
        simpa using ih (breaks + 1)
      · refine .keep ?_
        rw [hseen]
        exact ih (breaks + 1)
    · simp only [beq_iff_eq, hc, if_false]
      refine .keep ?_
      have hseen : breakSeen (decide (0 < breaks)) c =
          decide (0 < if isBlank c = true then breaks else 0) := by
        unfold breakSeen
        cases isBlank c <;> simp [hc]
      rw [hseen]
      exact ih _

end DashboardMarkup.Text

namespace DashboardMarkup

open Text

/-! ## Entities and tags -/

namespace Entity

theorem read?_name {name : List Char} {c : Char} (h : (name, c) ∈ names) (rest : List Char) :
    read? (name ++ rest) = some (c, rest) := by
  simp only [names, List.mem_cons, Prod.mk.injEq, List.not_mem_nil, or_false] at h
  rcases h with ⟨rfl, rfl⟩ | ⟨rfl, rfl⟩ | ⟨rfl, rfl⟩ | ⟨rfl, rfl⟩ | ⟨rfl, rfl⟩ | ⟨rfl, rfl⟩ | ⟨rfl, rfl⟩ <;>
    simp [read?, names, stripPrefix?]

/-- A name is read in both of two texts, since there is no line break in it. -/
theorem read?_respaced {s t rest : List Char} {c : Char} (h : Respaced false s t)
    (hread : read? s = some (c, rest)) :
    ∃ rest', read? t = some (c, rest') ∧ Respaced false rest rest' := by
  obtain ⟨⟨name, d⟩, hmem, hd⟩ := List.exists_of_findSome?_eq_some hread
  simp only [Option.map_eq_some_iff, Prod.mk.injEq, stripPrefix?_eq_some] at hd
  obtain ⟨r, rfl, rfl, rfl⟩ := hd
  have hbreak : '\n' ∉ name := by
    have hall : ∀ entry ∈ names, '\n' ∉ entry.1 := by decide
    exact hall _ hmem
  obtain ⟨rest', rfl, hrest⟩ := h.append_inv hbreak
  exact ⟨rest', read?_name hmem rest', hrest⟩

theorem decode_cons_of_none {c : Char} {cs : List Char} (h : read? (c :: cs) = none) :
    decode (c :: cs) = c :: decode cs := by
  rw [decode_cons, h]

end Entity

open Entity in
/-- What is decoded differs by superfluous breaks only, too. -/
theorem Text.Respaced.decode {seen : Bool} {s t : List Char} (h : Respaced seen s t) :
    Respaced seen (decode s) (decode t) := by
  -- a name is read at once, so that the induction is on the length of both texts
  generalize hlength : s.length + t.length = n
  induction n using Nat.strongRecOn generalizing seen s t with
  | ind n ih =>
    cases h with
    | nil => exact .refl _ _
    | @left s _ h =>
      rw [decode_cons_of_ne _ (by decide)]
      exact .left (ih _ (by rw [← hlength]; simp) h rfl)
    | @right _ t h =>
      rw [decode_cons_of_ne _ (by decide)]
      exact .right (ih _ (by rw [← hlength]; simp) h rfl)
    | @keep _ c s t h =>
      cases hread : read? (c :: s) with
      | some found =>
        obtain ⟨d, rest⟩ := found
        have hc : c = '&' := by
          refine Decidable.byContradiction fun hne => ?_
          rw [read?_of_ne s hne] at hread
          exact absurd hread (by simp)
        subst hc
        have hfalse : Respaced false ('&' :: s) ('&' :: t) := .keep h
        obtain ⟨rest', hread', hrest⟩ := read?_respaced hfalse hread
        rw [decode_of_read? hread, decode_of_read? hread']
        have hlt := length_read?_lt hread
        have hlt' := length_read?_lt hread'
        exact .keep ((ih _ (by omega) hrest rfl).weaken (by simp))
      | none =>
        have hread' : read? (c :: t) = none := by
          by_cases hc : c = '&'
          · subst hc
            rw [← Option.not_isSome_iff_eq_none, Option.isSome_iff_exists]
            rintro ⟨⟨d, rest⟩, hsome⟩
            have hfalse : Respaced false ('&' :: t) ('&' :: s) := .keep h.symm
            obtain ⟨rest', hsome', -⟩ := read?_respaced hfalse hsome
            rw [hread] at hsome'
            exact absurd hsome' (by simp)
          · exact read?_of_ne t hc
        rw [decode_cons_of_none hread, decode_cons_of_none hread']
        exact .keep (ih _ (by rw [← hlength]; simp; omega) h rfl)

namespace Markup

/-- Outside tags, too. Of a break in a tag nothing is seen. -/
theorem outsideTags_respaced {seen seen' inTag : Bool} {s t : List Char} (h : Respaced seen s t)
    (hseen : inTag = false → seen = true → seen' = true) :
    Respaced seen' (outsideTags inTag s) (outsideTags inTag t) := by
  induction h generalizing seen' inTag with
  | nil => exact .nil seen'
  | @keep seen c s t h ih =>
    unfold outsideTags
    split
    · refine .keep (ih fun hin => ?_)
      exact absurd hin (by simp)
    · cases inTag with
      | true =>
        simp only [if_true]
        refine ih fun hc => ?_
        have hc : c = '>' := by simpa using hc
        subst hc
        intro hseen
        rw [breakSeen_of_not_blank rfl] at hseen
        exact absurd hseen (by simp)
      | false =>
        simp only [Bool.false_eq_true, if_false]
        refine .keep (ih fun _ => ?_)
        have hseen := hseen rfl
        unfold breakSeen
        simp only [Bool.or_eq_true, Bool.and_eq_true]
        exact Or.imp_right (And.imp_right hseen)
  | @left s t h ih =>
    cases inTag with
    | true => exact ih fun hin => absurd hin (by simp)
    | false =>
      have hseen' : seen' = true := hseen rfl rfl
      subst hseen'
      exact .left (ih fun _ _ => rfl)
  | @right s t h ih =>
    cases inTag with
    | true => exact ih fun hin => absurd hin (by simp)
    | false =>
      have hseen' : seen' = true := hseen rfl rfl
      subst hseen'
      exact .right (ih fun _ _ => rfl)

/-- **A reader sees the same text.** -/
theorem visible_respaced {seen : Bool} {s t : List Char} (h : Respaced seen s t) :
    visible s = visible t := by
  unfold visible squeeze
  have hwords := (@outsideTags_respaced seen seen false s t h fun _ h => h).decode.words
  rw [hwords]

end Markup

end DashboardMarkup
