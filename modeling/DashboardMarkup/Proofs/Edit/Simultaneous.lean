import DashboardMarkup.Proofs.Text.Offset
import Mathlib.Data.List.Nodup

/-!
# Splices carried out at once

`Splice.Carries` says what a list of splices means: their spans lie one behind another between the
characters of a text, each of them is replaced by the text of its splice, and all that stands between
them is kept in order. The editor works otherwise. It sorts the splices and applies them one at a time,
from the last to the first.

* `applyAll_of_carries`: the two agree, and no span is refused.
* `carries_of_disjoint`: spans that fit and lie apart can always be carried out.
* `Carries.fits`, `Carries.disjoint`: splices that can be carried out fit and lie apart.
-/

namespace DashboardMarkup.Splice

open Text (size size_nil)

/-- **All splices at once.** A text that begins at an offset becomes another one when the spans of some
splices, which lie one behind another, are replaced by the texts of the splices. -/
inductive Carries : Nat → List Splice → List Char → List Char → Prop
  | done (offset : Nat) (text : List Char) : Carries offset [] text text
  | swap {offset : Nat} {splices : List Splice} {source target : List Char}
      (kept cut put : List Char)
      (more : Carries (offset + size kept + size cut) splices source target) :
      Carries offset
        (⟨⟨offset + size kept, offset + size kept + size cut⟩, put⟩ :: splices)
        (kept ++ (cut ++ source)) (kept ++ (put ++ target))

namespace Carries

variable {offset : Nat} {splices : List Splice} {source target : List Char}

/-- Text in front of all splices is kept. -/
theorem keep (kept : List Char) (h : Carries (offset + size kept) splices source target) :
    Carries offset splices (kept ++ source) (kept ++ target) := by
  cases h with
  | done text => exact done _ _
  | swap more cut put h =>
    have hsize : offset + size kept + size more = offset + size (kept ++ more) := by
      rw [Text.size_append]
      omega
    rw [hsize] at h ⊢
    rw [← List.append_assoc kept more, ← List.append_assoc kept more]
    exact swap (kept ++ more) cut put h

/-- The same with a cut at the very front. -/
theorem swap_front (cut put : List Char) (h : Carries (offset + size cut) splices source target) :
    Carries offset (⟨⟨offset, offset + size cut⟩, put⟩ :: splices) (cut ++ source) (put ++ target) := by
  have := swap [] cut put (show Carries (offset + size [] + size cut) splices source target from h)
  simpa only [size_nil, Nat.add_zero, List.nil_append] using this

theorem append {splices' : List Splice} {source' target' : List Char}
    (h : Carries offset splices source target)
    (h' : Carries (offset + size source) splices' source' target') :
    Carries offset (splices ++ splices') (source ++ source') (target ++ target') := by
  induction h with
  | done offset text => exact keep text h'
  | @swap offset splices source target kept cut put _ ih =>
    have hsize : offset + size (kept ++ (cut ++ source)) =
        offset + size kept + size cut + size source := by
      simp only [Text.size_append]
      omega
    rw [hsize] at h'
    simpa only [List.append_assoc, List.cons_append] using swap kept cut put (ih h')

theorem offset_le (h : Carries offset splices source target) :
    ∀ s ∈ splices, offset ≤ s.span.start := by
  induction h with
  | done => simp
  | swap kept cut put _ ih =>
    intro s hs
    rcases List.mem_cons.mp hs with rfl | hs
    · exact Nat.le_add_right _ _
    · have := ih s hs
      omega

theorem fits (front : List Char) (h : Carries (size front) splices source target) :
    ∀ s ∈ splices, s.span.Fits (front ++ source) := by
  generalize hn : size front = n at h
  induction h generalizing front with
  | done => simp
  | @swap offset splices source target kept cut put _ ih =>
    intro s hs
    rcases List.mem_cons.mp hs with rfl | hs
    · refine ⟨front ++ kept, cut, source, by simp, ?_, ?_⟩ <;> simp [hn]
    · have := ih (front ++ kept ++ cut) (by simp only [Text.size_append, hn]) s hs
      simpa using this

/-- Each span ends before the next one begins. -/
theorem disjoint (h : Carries offset splices source target) :
    splices.Pairwise fun a b => a.span.stop ≤ b.span.start := by
  induction h with
  | done => exact List.Pairwise.nil
  | swap kept cut put h ih =>
    rw [List.pairwise_cons]
    exact ⟨h.offset_le, ih⟩

/-- Applied from the last to the first, the splices of a text do what they do at once. -/
theorem foldlM_reverse (front : List Char) (h : Carries (size front) splices source target) :
    splices.reverse.foldlM apply (front ++ source) = .ok (front ++ target) := by
  generalize hn : size front = n at h
  induction h generalizing front with
  | done => rfl
  | @swap offset splices source target kept cut put _ ih =>
    have hrest := ih (front ++ kept ++ cut) (by simp only [Text.size_append, hn])
    have happly := apply_append (front ++ kept) cut target put
    rw [Text.size_append, hn] at happly
    rw [List.reverse_cons, List.foldlM_append]
    simp only [List.append_assoc] at hrest happly ⊢
    rw [hrest]
    change List.foldlM apply (front ++ (kept ++ (cut ++ target))) [_] = _
    rw [List.foldlM_cons, happly]
    rfl

/-- The result is determined. -/
theorem unique {target' : List Char} (front : List Char) (h : Carries (size front) splices source target)
    (h' : Carries (size front) splices source target') : target = target' := by
  have hout := h.foldlM_reverse front
  rw [h'.foldlM_reverse front] at hout
  exact (List.append_cancel_left (Except.ok.inj hout)).symm

end Carries

/-- Splices whose spans begin one behind another are applied from the last to the first. -/
theorem ordered_eq_reverse {splices : List Splice}
    (h : splices.Pairwise fun a b => a.span.start < b.span.start) :
    ordered splices = splices.reverse := by
  have hrev : splices.reverse.Pairwise fun a b => b.span.start < a.span.start := by
    rw [List.pairwise_reverse]
    exact h
  have hperm : (ordered splices).Perm splices.reverse :=
    (List.mergeSort_perm _ _).trans (List.reverse_perm splices).symm
  have hle : (ordered splices).Pairwise fun a b => b.span.start ≤ a.span.start := by
    have := @List.pairwise_mergeSort Splice (fun a b => decide (b.span.start ≤ a.span.start))
      (by intro a b c; simp only [decide_eq_true_eq]; omega)
      (by intro a b; simp only [Bool.or_eq_true, decide_eq_true_eq]; omega) splices
    exact this.imp fun h => by simpa using h
  -- starts differ, so that two lists in descending order agree
  have hnodup : (splices.reverse.map fun s => s.span.start).Nodup := by
    rw [List.Nodup, List.pairwise_map]
    exact hrev.imp fun h => Nat.ne_of_gt h
  refine List.Perm.eq_of_pairwise ?_ hle (hrev.imp Nat.le_of_lt) hperm
  intro a b ha hb hba hab
  exact List.inj_on_of_nodup_map hnodup (hperm.mem_iff.mp ha) hb (Nat.le_antisymm hab hba)

/-- **The editor carries out splices at once**: applied one at a time in its order, none is refused, and
the result is the text with all of them replaced. -/
theorem applyAll_of_carries {splices : List Splice} {doc out : List Char}
    (h : Carries 0 splices doc out)
    (hstart : splices.Pairwise fun a b => a.span.start < b.span.start) :
    applyAll doc splices = .ok out := by
  unfold applyAll
  rw [ordered_eq_reverse hstart]
  exact h.foldlM_reverse []

/-- Spans that fit a text and lie one behind another can be carried out. -/
theorem carries_of_disjoint {splices : List Splice} {front text : List Char}
    (hfits : ∀ s ∈ splices, s.span.Fits (front ++ text))
    (hfront : ∀ s ∈ splices, size front ≤ s.span.start)
    (hdisjoint : splices.Pairwise fun a b => a.span.stop ≤ b.span.start) :
    ∃ out, Carries (size front) splices text out := by
  induction splices generalizing front text with
  | nil => exact ⟨text, .done _ _⟩
  | cons s splices ih =>
    obtain ⟨hs, hmore⟩ := List.pairwise_cons.mp hdisjoint
    obtain ⟨before, cut, behind, htext, hstart, hstop⟩ := hfits s List.mem_cons_self
    obtain ⟨kept, rfl, rfl⟩ :=
      Text.append_of_size_le htext (by rw [hstart]; exact hfront s List.mem_cons_self)
    have hsize : size (front ++ kept ++ cut) = s.span.stop := by
      rw [Text.size_append, hstop]
    have hwhole : front ++ (kept ++ (cut ++ behind)) = front ++ kept ++ cut ++ behind := by simp
    have hfits' : ∀ t ∈ splices, t.span.Fits (front ++ kept ++ cut ++ behind) :=
      fun t ht => hwhole ▸ hfits t (List.mem_cons_of_mem s ht)
    obtain ⟨out, hout⟩ := ih hfits' (fun t ht => hsize ▸ hs t ht) hmore
    refine ⟨kept ++ (s.text ++ out), ?_⟩
    have hs' : s = ⟨⟨size front + size kept, size front + size kept + size cut⟩, s.text⟩ := by
      obtain ⟨⟨start, stop⟩, put⟩ := s
      simp only [Text.size_append] at hstart hstop
      simp only [Splice.mk.injEq, Span.mk.injEq, and_true]
      omega
    rw [hs']
    refine .swap kept cut s.text ?_
    simpa only [Text.size_append] using hout

end DashboardMarkup.Splice
