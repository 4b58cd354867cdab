import DashboardMarkup.Edit.Splice

/-!
# Offsets between characters

A byte offset into a text is of use only where a character begins or the text ends. `Span.Fits` says so
of both ends of a span, `Text.At` of a single character.

* `Span.around?_eq_some`, `Span.cut?_eq_some`: what a span leaves and what it covers, read off any
  division of the text at the ends of the span.
* `Span.Fits.text_eq_ok`: a span that fits has a text.
-/

namespace DashboardMarkup

namespace Text

/-- Two divisions of one text at one offset are the same. -/
theorem append_inj_of_size {a b c d : List Char} (h : a ++ b = c ++ d) (hs : size a = size c) :
    a = c ∧ b = d := by
  have h1 := splitBytes?_append a b
  rw [h, hs, splitBytes?_append c d] at h1
  simp only [Option.some.injEq, Prod.mk.injEq] at h1
  exact ⟨h1.1.symm, h1.2.symm⟩

theorem splitBytes?_eq_some {n : Nat} {text first rest : List Char} :
    splitBytes? n text = some (first, rest) ↔ text = first ++ rest ∧ size first = n := by
  constructor
  · exact append_of_splitBytes?
  · rintro ⟨rfl, rfl⟩
    exact splitBytes?_append first rest

/-- Of two divisions of one text, the one at the greater offset lies in the second part of the other. -/
theorem append_of_size_le {a b c d : List Char} (h : a ++ b = c ++ d) (hs : size a ≤ size c) :
    ∃ m, c = a ++ m ∧ b = m ++ d := by
  rcases List.append_eq_append_iff.mp h with ⟨m, hc, hb⟩ | ⟨m, ha, hd⟩
  · exact ⟨m, hc, hb⟩
  · have hm : m = [] := by
      rw [← size_eq_zero]
      rw [ha, size_append] at hs
      omega
    subst hm
    exact ⟨[], by simpa using ha.symm, by simpa using hd.symm⟩

/-- An offset between characters: one begins there, or the text ends. -/
def Boundary (text : List Char) (offset : Nat) : Prop :=
  ∃ front rest, text = front ++ rest ∧ size front = offset

/-- The character `c` begins at an offset of a text. -/
def At (text : List Char) (offset : Nat) (c : Char) : Prop :=
  ∃ front rest, text = front ++ c :: rest ∧ size front = offset

/-- One character begins at an offset. -/
theorem At.unique {text : List Char} {n : Nat} {c d : Char} (hc : At text n c) (hd : At text n d) :
    c = d := by
  obtain ⟨a, r, rfl, rfl⟩ := hc
  obtain ⟨b, s, h, hs⟩ := hd
  have := (append_inj_of_size h hs.symm).2
  exact (List.cons.inj this).1

/-- A character that begins inside a part of a text belongs to that part. -/
theorem At.mem {a b d : List Char} {n : Nat} {c : Char} (h : At (a ++ (b ++ d)) n c)
    (hlo : size a ≤ n) (hhi : n < size a + size b) : c ∈ b := by
  obtain ⟨front, rest, heq, rfl⟩ := h
  obtain ⟨m, rfl, hm⟩ := append_of_size_le heq hlo
  rcases List.append_eq_append_iff.mp hm with ⟨k, hk, hd⟩ | ⟨k, hk, hd⟩
  · rw [hk, size_append, size_append] at hhi
    omega
  · cases k with
    | nil =>
      rw [List.append_nil] at hk
      rw [hk, size_append] at hhi
      omega
    | cons e k =>
      have : c = e := (List.cons.inj hd).1
      rw [hk, this]
      simp

end Text

open Text (size)

namespace Span

theorem around?_eq_some {span : Span} {text before behind : List Char} :
    span.around? text = some (before, behind) ↔
      ∃ covered, text = before ++ (covered ++ behind) ∧ size before = span.start ∧
        size before + size covered = span.stop := by
  unfold around?
  simp only [Option.bind_eq_bind, Option.bind_eq_some_iff, Prod.exists, Text.splitBytes?_eq_some]
  constructor
  · rintro ⟨a, rest, ⟨rfl, ha⟩, h⟩
    split at h
    · exact absurd h (by simp)
    · next hle =>
      simp only [Option.bind_eq_some_iff, Prod.exists, Text.splitBytes?_eq_some, Option.pure_def,
        Option.some.injEq, Prod.mk.injEq] at h
      obtain ⟨covered, _, ⟨rfl, hc⟩, rfl, rfl⟩ := h
      exact ⟨covered, rfl, ha, by omega⟩
  · rintro ⟨covered, rfl, ha, hc⟩
    refine ⟨before, covered ++ behind, ⟨rfl, ha⟩, ?_⟩
    rw [if_neg (by omega)]
    have : Text.splitBytes? (span.stop - span.start) (covered ++ behind) = some (covered, behind) :=
      Text.splitBytes?_eq_some.mpr ⟨rfl, by omega⟩
    rw [this]
    rfl

theorem cut?_eq_some {span : Span} {text covered : List Char} :
    span.cut? text = some covered ↔
      ∃ before behind, text = before ++ (covered ++ behind) ∧ size before = span.start ∧
        size before + size covered = span.stop := by
  unfold cut?
  simp only [Option.bind_eq_bind, Option.bind_eq_some_iff, Prod.exists, Text.splitBytes?_eq_some]
  constructor
  · rintro ⟨a, rest, ⟨rfl, ha⟩, h⟩
    split at h
    · exact absurd h (by simp)
    · next hle =>
      simp only [Option.bind_eq_some_iff, Prod.exists, Text.splitBytes?_eq_some, Option.pure_def,
        Option.some.injEq] at h
      obtain ⟨c, behind, ⟨rfl, hc⟩, rfl⟩ := h
      exact ⟨a, behind, rfl, ha, by omega⟩
  · rintro ⟨before, behind, rfl, ha, hc⟩
    refine ⟨before, covered ++ behind, ⟨rfl, ha⟩, ?_⟩
    rw [if_neg (by omega)]
    have : Text.splitBytes? (span.stop - span.start) (covered ++ behind) = some (covered, behind) :=
      Text.splitBytes?_eq_some.mpr ⟨rfl, by omega⟩
    rw [this]
    rfl

theorem text_eq_ok {span : Span} {doc covered : List Char} :
    span.text doc = .ok covered ↔ span.cut? doc = some covered := by
  unfold text
  cases span.cut? doc <;> simp

/-- A span fits a text if its ends are in order, inside the text and between characters. -/
def Fits (span : Span) (text : List Char) : Prop :=
  ∃ before covered behind, text = before ++ (covered ++ behind) ∧ size before = span.start ∧
    size before + size covered = span.stop

namespace Fits

variable {span : Span} {text : List Char}

theorem text_eq_ok (h : span.Fits text) : ∃ covered, span.text text = .ok covered := by
  obtain ⟨before, covered, behind, htext, hstart, hstop⟩ := h
  exact ⟨covered, Span.text_eq_ok.mpr (cut?_eq_some.mpr ⟨before, behind, htext, hstart, hstop⟩)⟩

theorem start_le_stop (h : span.Fits text) : span.start ≤ span.stop := by
  obtain ⟨before, covered, behind, -, hstart, hstop⟩ := h
  omega

theorem stop_le_size (h : span.Fits text) : span.stop ≤ size text := by
  obtain ⟨before, covered, behind, rfl, hstart, hstop⟩ := h
  simp only [Text.size_append]
  omega

/-- The empty span at the start of a span that fits. -/
theorem at_start (h : span.Fits text) : Fits ⟨span.start, span.start⟩ text := by
  obtain ⟨before, covered, behind, rfl, hstart, -⟩ := h
  exact ⟨before, [], covered ++ behind, by simp, hstart, by simpa using hstart⟩

/-- The empty span at the end of a span that fits. -/
theorem at_stop (h : span.Fits text) : Fits ⟨span.stop, span.stop⟩ text := by
  obtain ⟨before, covered, behind, rfl, hstart, hstop⟩ := h
  refine ⟨before ++ covered, [], behind, by simp, ?_, ?_⟩ <;> simpa using hstop

/-- All that stands before the end of a span that fits. -/
theorem from_zero (h : span.Fits text) : Fits ⟨0, span.stop⟩ text := by
  obtain ⟨before, covered, behind, rfl, hstart, hstop⟩ := h
  exact ⟨[], before ++ covered, behind, by simp, rfl, by simpa using hstop⟩

theorem boundary_start (h : span.Fits text) : Text.Boundary text span.start := by
  obtain ⟨before, covered, behind, htext, hstart, -⟩ := h
  exact ⟨before, covered ++ behind, htext, hstart⟩

theorem boundary_stop (h : span.Fits text) : Text.Boundary text span.stop := by
  obtain ⟨before, covered, behind, htext, -, hstop⟩ := h
  exact ⟨before ++ covered, behind, by simp [htext], by simpa using hstop⟩

end Fits

theorem fits_of_boundary {start stop : Nat} {text : List Char} (hstart : Text.Boundary text start)
    (hstop : Text.Boundary text stop) (hle : start ≤ stop) : Fits ⟨start, stop⟩ text := by
  obtain ⟨before, behind, rfl, rfl⟩ := hstart
  obtain ⟨front, rest, htext, rfl⟩ := hstop
  obtain ⟨covered, rfl, rfl⟩ := Text.append_of_size_le htext hle
  exact ⟨before, covered, rest, rfl, rfl, (Text.size_append before covered).symm⟩

/-- The whole of a text. -/
theorem fits_whole (text : List Char) : Fits ⟨0, size text⟩ text :=
  ⟨[], text, [], by simp, rfl, by simp⟩

end Span

end DashboardMarkup
