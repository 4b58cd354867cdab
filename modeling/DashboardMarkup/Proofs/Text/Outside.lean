import DashboardMarkup.Proofs.Edit.Simultaneous
import Mathlib.Algebra.GroupWithZero.Nat

/-!
# What stands outside some spans

`Text.outside` keeps the characters of a text that none of some spans covers. The spans may overlap and
come in any order, so that it says what is left of a text without saying how it is cut.

* `outside_of_carries`: splices with no text of their own, carried out at once, leave what is outside.
* `sublist_of_applyAll`: carried out one at a time, they leave nothing of what their spans cover even if
  these overlap.
* `filter_outside_congr`: spans that cover the same characters of a class leave the same ones of it.
* `size_of_applyAll`: each takes away as many bytes as its span is long.
-/

namespace DashboardMarkup

/-- Whether a character that begins at an offset begins inside a span. -/
def Span.covers (span : Span) (offset : Nat) : Bool :=
  decide (span.start ≤ offset) && decide (offset < span.stop)

/-- The number of bytes between the ends of a span. -/
def Span.length (span : Span) : Nat :=
  span.stop - span.start

@[simp] theorem Span.covers_iff {span : Span} {offset : Nat} :
    span.covers offset = true ↔ span.start ≤ offset ∧ offset < span.stop := by
  simp [covers]

namespace Text

/-- The characters of a text that no span covers. The text begins at an offset. -/
def outside (spans : List Span) (offset : Nat) : List Char → List Char
  | [] => []
  | c :: cs =>
    if spans.any fun span => span.covers offset then outside spans (offset + c.utf8Size) cs
    else c :: outside spans (offset + c.utf8Size) cs

variable {spans spans' : List Span}

theorem outside_cons (spans : List Span) (offset : Nat) (c : Char) (cs : List Char) :
    outside spans offset (c :: cs) =
      if (spans.any fun span => span.covers offset) = true then outside spans (offset + c.utf8Size) cs
      else c :: outside spans (offset + c.utf8Size) cs :=
  rfl

theorem outside_append (spans : List Span) (offset : Nat) (a b : List Char) :
    outside spans offset (a ++ b) = outside spans offset a ++ outside spans (offset + size a) b := by
  induction a generalizing offset with
  | nil => simp [outside]
  | cons c cs ih =>
    rw [List.cons_append, outside_cons, outside_cons, ih, size_cons, Nat.add_assoc]
    split
    · rfl
    · rw [List.cons_append]

/-- Only the offsets inside the text matter. -/
theorem outside_congr {offset : Nat} {text : List Char}
    (h : ∀ n, offset ≤ n → n < offset + size text →
      (spans.any fun span => span.covers n) = spans'.any fun span => span.covers n) :
    outside spans offset text = outside spans' offset text := by
  induction text generalizing offset with
  | nil => rfl
  | cons c cs ih =>
    have hpos := c.utf8Size_pos
    rw [size_cons] at h
    unfold outside
    rw [h offset (Nat.le_refl _) (by omega), ih fun n hlo hhi => h n (by omega) (by omega)]

theorem outside_nil (offset : Nat) (text : List Char) : outside [] offset text = text := by
  induction text generalizing offset with
  | nil => rfl
  | cons c cs ih =>
    unfold outside
    rw [ih]
    rfl

/-- A text that no span covers is kept. -/
theorem outside_eq_self {offset : Nat} {text : List Char}
    (h : ∀ n, offset ≤ n → n < offset + size text → ∀ span ∈ spans, span.covers n = false) :
    outside spans offset text = text := by
  have hnone : outside spans offset text = outside [] offset text := by
    refine outside_congr fun n hlo hhi => ?_
    rw [List.any_nil, List.any_eq_false]
    intro span hspan
    simp [h n hlo hhi span hspan]
  rw [hnone, outside_nil]

/-- A text that spans cover goes. -/
theorem outside_eq_nil {offset : Nat} {text : List Char}
    (h : ∀ n, offset ≤ n → n < offset + size text → ∃ span ∈ spans, span.covers n = true) :
    outside spans offset text = [] := by
  induction text generalizing offset with
  | nil => rfl
  | cons c cs ih =>
    have hpos := c.utf8Size_pos
    rw [size_cons] at h
    unfold outside
    rw [if_pos (List.any_eq_true.mpr (h offset (Nat.le_refl _) (by omega)))]
    exact ih fun n hlo hhi => h n (by omega) (by omega)

/-- More spans leave less, in the same order. -/
theorem outside_sublist {offset : Nat} {text : List Char}
    (h : ∀ n, (∃ span ∈ spans', span.covers n = true) → ∃ span ∈ spans, span.covers n = true) :
    (outside spans offset text).Sublist (outside spans' offset text) := by
  induction text generalizing offset with
  | nil => exact List.Sublist.refl _
  | cons c cs ih =>
    unfold outside
    by_cases hs : (spans'.any fun span => span.covers offset) = true
    · rw [if_pos hs, if_pos (List.any_eq_true.mpr (h offset (List.any_eq_true.mp hs)))]
      exact ih
    · rw [if_neg hs]
      split
      · exact ih.cons c
      · exact ih.cons_cons c

theorem size_outside_le (spans : List Span) (offset : Nat) (text : List Char) :
    size (outside spans offset text) ≤ size text := by
  induction text generalizing offset with
  | nil => exact Nat.le_refl _
  | cons c cs ih =>
    have := ih (offset + c.utf8Size)
    unfold outside
    split
    · rw [size_cons]
      omega
    · rw [size_cons, size_cons]
      omega

theorem size_le_of_sublist {part text : List Char} (h : part.Sublist text) : size part ≤ size text := by
  induction h with
  | slnil => exact Nat.le_refl _
  | cons c _ ih =>
    rw [size_cons]
    omega
  | cons_cons c _ ih =>
    rw [size_cons, size_cons]
    omega

theorem size_filter_add (p : Char → Bool) (text : List Char) :
    size (text.filter p) + size (text.filter fun c => !p c) = size text := by
  induction text with
  | nil => rfl
  | cons c cs ih =>
    by_cases hc : p c = true
    · rw [List.filter_cons_of_pos hc, List.filter_cons_of_neg (by simp [hc]), size_cons, size_cons]
      omega
    · rw [List.filter_cons_of_neg hc, List.filter_cons_of_pos (by simp [hc]), size_cons, size_cons]
      omega

/-- Spans that cover the same characters of a class leave the same characters of it. -/
theorem filter_outside_congr {p : Char → Bool} {offset : Nat} {text : List Char}
    (h : ∀ n c, At text n c → p c = true →
      (spans.any fun span => span.covers (offset + n)) = spans'.any fun span => span.covers (offset + n)) :
    (outside spans offset text).filter p = (outside spans' offset text).filter p := by
  induction text generalizing offset with
  | nil => rfl
  | cons c cs ih =>
    have htail : (outside spans (offset + c.utf8Size) cs).filter p =
        (outside spans' (offset + c.utf8Size) cs).filter p := by
      refine ih fun n d ⟨front, rest, hcs, hsize⟩ hd => ?_
      have := h (c.utf8Size + n) d ⟨c :: front, rest, by rw [hcs]; rfl, by rw [size_cons, hsize]⟩ hd
      rwa [← Nat.add_assoc] at this
    unfold outside
    by_cases hc : p c = true
    · have hhead := h 0 c ⟨[], cs, rfl, rfl⟩ hc
      rw [Nat.add_zero] at hhead
      rw [hhead]
      split
      · exact htail
      · rw [List.filter_cons_of_pos hc, List.filter_cons_of_pos hc, htail]
    · split <;> split <;> simp [hc, htail]

/-! ## What a span takes away -/

/-- One more span takes away the part of a text that it covers, and of the rest nothing. -/
theorem outside_cons_append {span : Span} {offset : Nat} {before covered : List Char}
    (hstart : offset + size before = span.start) (hstop : span.start + size covered = span.stop)
    (spans : List Span) (behind : List Char) :
    outside (span :: spans) offset (before ++ (covered ++ behind)) =
      outside spans offset before ++ outside spans span.stop behind := by
  have hother : ∀ n, span.covers n = false →
      ((span :: spans).any fun s => s.covers n) = spans.any fun s => s.covers n := by
    intro n hn
    rw [List.any_cons, hn, Bool.false_or]
  have hbefore : outside (span :: spans) offset before = outside spans offset before := by
    refine outside_congr fun n _ hn => hother n ?_
    simp [Span.covers]
    omega
  have hcovered : outside (span :: spans) span.start covered = [] := by
    refine outside_eq_nil fun n hlo hhi => ⟨span, List.mem_cons_self, ?_⟩
    rw [Span.covers_iff]
    omega
  have hbehind : outside (span :: spans) span.stop behind = outside spans span.stop behind := by
    refine outside_congr fun n hn _ => hother n ?_
    simp [Span.covers]
    omega
  rw [outside_append, outside_append, hstart, hstop, hbefore, hcovered, hbehind, List.nil_append]

end Text

open Text

namespace Splice

/-- **Splices without a text of their own leave what is outside their spans**, when they are carried out at
once. -/
theorem outside_of_carries {offset : Nat} {splices : List Splice} {source target : List Char}
    (h : Carries offset splices source target) (hcut : ∀ s ∈ splices, s.text = []) :
    target = outside (splices.map Splice.span) offset source := by
  induction h with
  | done offset text =>
    rw [List.map_nil, outside_nil]
  | @swap offset splices source target kept cut put more ih =>
    obtain rfl : put = [] := hcut _ List.mem_cons_self
    have hkept : outside (splices.map Splice.span) offset kept = kept := by
      refine outside_eq_self fun n _ hn span hspan => ?_
      obtain ⟨s, hs, rfl⟩ := List.mem_map.mp hspan
      have := more.offset_le s hs
      simp [Span.covers]
      omega
    rw [List.map_cons, outside_cons_append rfl rfl, hkept,
      ← ih fun s hs => hcut s (List.mem_cons_of_mem _ hs), List.nil_append]

/-- What stands behind a long enough front stands behind a short one. -/
theorem sublist_behind {front rest front' rest' : List Char}
    (h : (front ++ rest).Sublist (front' ++ rest')) (hsize : size front' ≤ size front) :
    rest.Sublist rest' := by
  obtain ⟨part, part', heq, hpart, hpart'⟩ := List.sublist_append_iff.mp h
  have hle := size_le_of_sublist hpart
  obtain ⟨between, -, rfl⟩ := append_of_size_le heq.symm (Nat.le_trans hle hsize)
  exact (List.sublist_append_right between rest).trans hpart'

/-- **Cuts that begin one behind another leave nothing of what their spans cover**, when they are carried
out from the last to the first, whether they overlap or not. -/
theorem sublist_of_foldlM {splices : List Splice} {front text out : List Char}
    (hcut : ∀ s ∈ splices, s.text = []) (hfits : ∀ s ∈ splices, s.span.Fits (front ++ text))
    (hfront : ∀ s ∈ splices, size front ≤ s.span.start)
    (hrising : splices.Pairwise fun a b => a.span.start < b.span.start)
    (h : splices.reverse.foldlM apply (front ++ text) = .ok out) :
    ∃ rest, out = front ++ rest ∧
      rest.Sublist (outside (splices.map Splice.span) (size front) text) := by
  induction splices generalizing front text out with
  | nil =>
    obtain rfl := Except.ok.inj h
    exact ⟨text, rfl, by rw [List.map_nil, outside_nil]⟩
  | cons s splices ih =>
    obtain ⟨hlater, hrising⟩ := List.pairwise_cons.mp hrising
    obtain ⟨before, covered, behind, htext, hstart, hstop⟩ := hfits s List.mem_cons_self
    obtain ⟨kept, rfl, rfl⟩ :=
      append_of_size_le htext (by rw [hstart]; exact hfront s List.mem_cons_self)
    -- the cuts behind the first one are carried out before it
    rw [List.reverse_cons, List.foldlM_append, ← List.append_assoc] at h
    cases hmid : splices.reverse.foldlM apply ((front ++ kept) ++ (covered ++ behind)) with
    | error span =>
      rw [hmid] at h
      exact absurd h (by simp [bind, Except.bind])
    | ok mid =>
      rw [hmid] at h
      have hfits' : ∀ t ∈ splices, t.span.Fits ((front ++ kept) ++ (covered ++ behind)) := fun t ht => by
        rw [List.append_assoc]
        exact hfits t (List.mem_cons_of_mem s ht)
      obtain ⟨rest, rfl, hrest⟩ := ih (fun t ht => hcut t (List.mem_cons_of_mem s ht)) hfits'
        (fun t ht => by rw [hstart]; exact Nat.le_of_lt (hlater t ht)) hrising hmid
      -- the first one takes as many bytes as it would have taken at once
      change [s].foldlM apply ((front ++ kept) ++ rest) = .ok out at h
      rw [List.foldlM_cons] at h
      unfold apply at h
      split at h
      · next before' behind' haround =>
        obtain ⟨taken, hsplit, hstart', hstop'⟩ := Span.around?_eq_some.mp haround
        obtain ⟨rfl, rfl⟩ := append_inj_of_size hsplit (by rw [hstart, hstart'])
        obtain rfl := Except.ok.inj h
        rw [size_append] at hstart
        refine ⟨kept ++ behind', by rw [hcut s List.mem_cons_self]; simp, ?_⟩
        have hkept : outside (splices.map Splice.span) (size front) kept = kept := by
          refine outside_eq_self fun n _ hn span hspan => ?_
          obtain ⟨t, ht, rfl⟩ := List.mem_map.mp hspan
          have := hlater t ht
          simp [Span.covers]
          omega
        rw [List.map_cons, outside_cons_append hstart (by rw [size_append] at hstop; omega), hkept]
        refine (List.append_sublist_append_left kept).mpr ?_
        have hend : size front + size kept + size covered = s.span.stop := by
          rw [← hstop, size_append]
        rw [outside_append, size_append, hend] at hrest
        refine sublist_behind hrest ?_
        have hle := size_outside_le (splices.map Splice.span) (size front + size kept) covered
        omega
      · exact absurd h (by simp [bind, Except.bind])

theorem sublist_of_applyAll {splices : List Splice} {doc out : List Char}
    (hcut : ∀ s ∈ splices, s.text = []) (hfits : ∀ s ∈ splices, s.span.Fits doc)
    (hrising : splices.Pairwise fun a b => a.span.start < b.span.start)
    (h : applyAll doc splices = .ok out) :
    out.Sublist (outside (splices.map Splice.span) 0 doc) := by
  unfold applyAll at h
  rw [ordered_eq_reverse hrising] at h
  obtain ⟨rest, rfl, hrest⟩ := @sublist_of_foldlM splices [] doc out hcut hfits
    (fun _ _ => Nat.zero_le _) hrising h
  exact hrest

/-- Each splice without a text of its own takes away the length of its span, whatever it takes. -/
theorem size_of_foldlM {splices : List Splice} {doc out : List Char}
    (hcut : ∀ s ∈ splices, s.text = []) (h : splices.foldlM apply doc = .ok out) :
    size out + (splices.map fun s => s.span.length).sum = size doc := by
  induction splices generalizing doc with
  | nil =>
    obtain rfl := Except.ok.inj h
    rfl
  | cons s splices ih =>
    rw [List.foldlM_cons] at h
    unfold apply at h
    split at h
    · next before behind haround =>
      obtain ⟨covered, rfl, hstart, hstop⟩ := Span.around?_eq_some.mp haround
      have hrest := ih (fun t ht => hcut t (List.mem_cons_of_mem s ht)) h
      rw [hcut s List.mem_cons_self, List.nil_append, size_append] at hrest
      rw [List.map_cons, List.sum_cons, Span.length, size_append, size_append]
      omega
    · exact absurd h (by simp [bind, Except.bind])

theorem size_of_applyAll {splices : List Splice} {doc out : List Char}
    (hcut : ∀ s ∈ splices, s.text = []) (h : applyAll doc splices = .ok out) :
    size out + (splices.map fun s => s.span.length).sum = size doc := by
  have hperm : (ordered splices).Perm splices := List.mergeSort_perm _ _
  have hsize := size_of_foldlM (fun s hs => hcut s (hperm.mem_iff.mp hs)) h
  rwa [(hperm.map fun s => s.span.length).sum_nat] at hsize

end Splice

end DashboardMarkup
