import DashboardMarkup.Template.Resolve
import Mathlib.Data.List.Chain

/-!
# Texts without tags

A text without the opening marks of assignments and outputs stands for itself.

* `Lacks`: a pair of characters stands nowhere in a text.
* `cut?_pair`, `cut?_of_lacks`: where a text is cut at a mark of two characters.
* `resolve_untagged`: a text without opening marks is resolved to itself.
-/

namespace DashboardMarkup.Template

open Text

/-! ## Pairs of characters -/

/-- **A pair of characters stands nowhere in a text.** -/
def Lacks (a b : Char) (text : List Char) : Prop :=
  text.IsChain fun c d => c = a → d ≠ b

instance (a b : Char) (text : List Char) : Decidable (Lacks a b text) :=
  inferInstanceAs (Decidable (text.IsChain _))

namespace Lacks

variable {a b : Char} {s t : List Char}

theorem append_iff : Lacks a b (s ++ t) ↔
    Lacks a b s ∧ Lacks a b t ∧ ∀ c ∈ s.getLast?, ∀ d ∈ t.head?, c = a → d ≠ b :=
  List.isChain_append

theorem of_first (h : a ∉ s) : Lacks a b s := by
  induction s with
  | nil => exact .nil
  | cons c s ih =>
    refine (ih fun hmem => h (List.mem_cons_of_mem c hmem)).cons fun d _ hc => ?_
    exact absurd (hc ▸ List.mem_cons_self) h

/-- Behind a text without the first character of the pair. -/
theorem append_of_first (hs : a ∉ s) (ht : Lacks a b t) : Lacks a b (s ++ t) :=
  append_iff.mpr ⟨of_first hs, ht, fun _ hc _ _ heq => absurd (heq ▸ List.mem_of_mem_getLast? hc) hs⟩

/-- Before a text without the second one. -/
theorem append_of_second (hs : Lacks a b s) (ht : Lacks a b t) (hb : b ∉ t.head?) : Lacks a b (s ++ t) :=
  append_iff.mpr ⟨hs, ht, fun _ _ _ hd _ heq => hb (heq ▸ hd)⟩

end Lacks

/-- **A text is cut at a pair of characters that does not stand in it before.** -/
theorem cut?_pair {a b : Char} {before : List Char} (h : Lacks a b (before ++ [a])) (after : List Char) :
    cut? [a, b] (before ++ a :: b :: after) = some (before, after) := by
  induction before with
  | nil => simp [cut?, stripPrefix?]
  | cons c before ih =>
    have hrest := ih (List.isChain_of_isChain_cons h)
    have hnone : stripPrefix? [a, b] (c :: (before ++ a :: b :: after)) = none := by
      refine Option.eq_none_iff_forall_ne_some.mpr fun rest hrest => ?_
      obtain ⟨rfl, heq⟩ := List.cons.inj (stripPrefix?_eq_some.mp hrest)
      -- the second character would stand behind the first one of the text
      cases before with
      | nil =>
        obtain ⟨hd, -⟩ := List.cons.inj heq
        exact (List.isChain_cons_cons.mp h).1 rfl hd
      | cons d before =>
        obtain ⟨hd, -⟩ := List.cons.inj heq
        exact (List.isChain_cons_cons.mp h).1 rfl hd
    show cut? [a, b] (c :: (before ++ a :: b :: after)) = _
    rw [cut?, hnone, hrest]
    rfl

theorem cut?_of_lacks {a b : Char} {text : List Char} (h : Lacks a b text) : cut? [a, b] text = none := by
  cases hcut : cut? [a, b] text with
  | none => rfl
  | some parts =>
    obtain ⟨before, after⟩ := parts
    rw [append_of_cut? hcut] at h
    have hpair := (Lacks.append_iff.mp h).2.1
    exact absurd rfl ((List.isChain_cons_cons.mp hpair).1 rfl)

/-! ## Texts without opening marks -/

/-- **No opening mark stands in a text**: no brace is followed by another one or by a percent sign. -/
def Untagged (text : List Char) : Prop :=
  text.IsChain fun a b => a = '\x7b' → b ≠ '\x7b' ∧ b ≠ '%'

instance (text : List Char) : Decidable (Untagged text) :=
  inferInstanceAs (Decidable (text.IsChain _))

theorem Untagged.lacks {text : List Char} (h : Untagged text) {c : Char} (hc : c = '\x7b' ∨ c = '%') :
    Lacks '\x7b' c text :=
  h.imp fun _ _ hpair hbrace => by
    rcases hc with rfl | rfl
    · exact (hpair hbrace).1
    · exact (hpair hbrace).2

theorem cut?_untagged {text : List Char} (h : Untagged text) {c : Char} (hc : c = '\x7b' ∨ c = '%') :
    cut? ['\x7b', c] text = none :=
  cut?_of_lacks (h.lacks hc)

/-- **A text without tags stands for itself.** -/
theorem resolve_untagged {text : List Char} (h : Untagged text) : resolve text = text := by
  have hassign : segments assignMarks text = [.plain text] := by
    rw [segments]
    split
    · rfl
    · next hcut =>
      rw [show assignMarks.opener = ['\x7b', '%'] from rfl, cut?_untagged h (Or.inr rfl)] at hcut
      exact absurd hcut (by simp)
  have houtput : segments outputMarks text = [.plain text] := by
    rw [segments]
    split
    · rfl
    · next hcut =>
      rw [show outputMarks.opener = ['\x7b', '\x7b'] from rfl, cut?_untagged h (Or.inl rfl)] at hcut
      exact absurd hcut (by simp)
  have hwithout : withoutAssignments text = text := by
    unfold withoutAssignments
    rw [hassign]
    simp [Segment.assignment?, Segment.source]
  unfold resolve
  rw [hwithout, houtput]
  simp [Segment.resolve]

end DashboardMarkup.Template
