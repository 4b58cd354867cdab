import DashboardMarkup.Proofs.Text.Outside

/-!
# What is left of a span between holes

`Span.without` goes through the holes once, with a cursor that moves to the end of each. The holes may overlap, lie
in one another, be empty or reach beyond the span, as long as none begins before the one that comes before it: what
the cursor has passed then lies behind no hole that is still to come.

* `mem_without`, `pairwise_without`: the pieces lie inside the span, one behind another. The order of the holes does
  not matter for this.
* `exists_covers_without_iff`: between holes in order, they cover the offsets of the span that no hole covers.
* `without_difference`: all of it.
-/

namespace DashboardMarkup.Span

variable {range hole : Span} {holes : List Span}

/-! ## The pieces -/

/-- **A piece is not empty and lies inside the span.** -/
theorem mem_without {piece : Span} (h : piece ∈ range.without holes) :
    range.start ≤ piece.start ∧ piece.start < piece.stop ∧ piece.stop ≤ range.stop := by
  induction holes generalizing range with
  | nil =>
    rw [without] at h
    split at h
    · next hlt =>
      obtain rfl := List.mem_singleton.mp h
      exact ⟨Nat.le_refl _, hlt, Nat.le_refl _⟩
    · exact absurd h List.not_mem_nil
  | cons hole holes ih =>
    rcases apart_or_meets range hole with hapart | ⟨hstop, hstart⟩
    · rw [without_cons_of_apart hapart] at h
      exact ih h
    · rw [without_cons_of_meets hstop hstart] at h
      rcases List.mem_append.mp h with hfirst | hlater
      · split at hfirst
        · next hlt =>
          obtain rfl := List.mem_singleton.mp hfirst
          exact ⟨Nat.le_refl _, hlt, Nat.le_of_lt hstart⟩
        · exact absurd hfirst List.not_mem_nil
      · obtain ⟨hbegin, hlt, hend⟩ := ih hlater
        exact ⟨Nat.le_trans (Nat.le_of_lt hstop) hbegin, hlt, hend⟩

/-- **Each piece ends before the next one begins**, whatever the order of the holes. -/
theorem pairwise_without (hends : ∀ hole ∈ holes, hole.start ≤ hole.stop) :
    (range.without holes).Pairwise fun a b => a.stop ≤ b.start := by
  induction holes generalizing range with
  | nil =>
    rw [without]
    split
    · exact List.pairwise_singleton _ _
    · exact List.Pairwise.nil
  | cons hole holes ih =>
    obtain ⟨hle, hends⟩ := List.forall_mem_cons.mp hends
    rcases apart_or_meets range hole with hapart | ⟨hstop, hstart⟩
    · rw [without_cons_of_apart hapart]
      exact ih hends
    · rw [without_cons_of_meets hstop hstart]
      -- the pieces still to come begin behind the hole
      split
      · refine List.pairwise_cons.mpr ⟨fun piece hpiece => ?_, ih hends⟩
        obtain ⟨hbegin, -, -⟩ := mem_without hpiece
        exact Nat.le_trans hle hbegin
      · exact ih hends

/-! ## The offsets that are covered -/

theorem exists_covers_without_cons_of_meets (hstop : range.start < hole.stop) (hstart : hole.start < range.stop)
    (n : Nat) :
    (∃ piece ∈ range.without (hole :: holes), piece.covers n = true) ↔
      (range.start ≤ n ∧ n < hole.start) ∨
        ∃ piece ∈ Span.without ⟨hole.stop, range.stop⟩ holes, piece.covers n = true := by
  rw [without_cons_of_meets hstop hstart]
  simp only [List.mem_append, or_and_right, exists_or]
  refine or_congr_left ?_
  split
  · simp
  · next hlt =>
    simp only [List.not_mem_nil, false_and, exists_false, false_iff]
    omega

/-- **The pieces cover what no hole covers**, if no hole begins before the one that comes before it. -/
theorem exists_covers_without_iff (hsorted : holes.Pairwise fun a b => a.start ≤ b.start) (n : Nat) :
    (∃ piece ∈ range.without holes, piece.covers n = true) ↔
      range.covers n = true ∧ ∀ hole ∈ holes, ¬hole.covers n = true := by
  induction holes generalizing range with
  | nil =>
    rw [without]
    split
    · simp
    · next hlt =>
      simp only [List.not_mem_nil, false_and, exists_false, false_iff, covers_iff, not_and]
      omega
  | cons hole holes ih =>
    obtain ⟨hfirst, hsorted⟩ := List.pairwise_cons.mp hsorted
    rw [List.forall_mem_cons]
    rcases apart_or_meets range hole with hapart | ⟨hstop, hstart⟩
    · rw [without_cons_of_apart hapart, ih hsorted]
      refine and_congr_right fun hn => (and_iff_right ?_).symm
      rw [covers_iff] at hn ⊢
      omega
    · rw [exists_covers_without_cons_of_meets hstop hstart, ih hsorted]
      simp only [covers_iff]
      constructor
      · rintro (⟨hlo, hhi⟩ | ⟨⟨hlo, hhi⟩, hlater⟩)
        · -- the holes still to come begin where this one does, or behind
          refine ⟨by omega, by omega, fun later hmem hcovers => ?_⟩
          have := hfirst later hmem
          omega
        · exact ⟨by omega, by omega, hlater⟩
      · rintro ⟨⟨hlo, hhi⟩, hhole, hlater⟩
        by_cases hbefore : n < hole.start
        · exact Or.inl ⟨hlo, hbefore⟩
        · exact Or.inr ⟨by omega, hlater⟩

/-- **What is left of a span between holes is their difference**, in pieces that are not empty and stand one behind
another. -/
theorem without_difference (range : Span) (holes : List Span) (hends : ∀ hole ∈ holes, hole.start ≤ hole.stop)
    (hsorted : holes.Pairwise fun a b => a.start ≤ b.start) :
    (∀ piece ∈ range.without holes, piece.start < piece.stop) ∧
      ((range.without holes).Pairwise fun a b => a.stop ≤ b.start) ∧
      ∀ n, (∃ piece ∈ range.without holes, piece.covers n = true) ↔
        range.covers n = true ∧ ∀ hole ∈ holes, ¬hole.covers n = true :=
  ⟨fun _ hpiece => (mem_without hpiece).2.1, pairwise_without hends, exists_covers_without_iff hsorted⟩

/-- Holes that begin before the span, touch, overlap, lie in one another, are empty and reach beyond the span. -/
theorem without_difference_overlapping :
    (⟨3, 20⟩ : Span).without [⟨0, 4⟩, ⟨4, 6⟩, ⟨5, 10⟩, ⟨6, 8⟩, ⟨12, 12⟩, ⟨18, 30⟩, ⟨19, 20⟩] =
        [⟨10, 12⟩, ⟨12, 18⟩] ∧
      ∀ n, (∃ piece ∈ ([⟨10, 12⟩, ⟨12, 18⟩] : List Span), piece.covers n = true) ↔
        (⟨3, 20⟩ : Span).covers n = true ∧
          ∀ hole ∈ ([⟨0, 4⟩, ⟨4, 6⟩, ⟨5, 10⟩, ⟨6, 8⟩, ⟨12, 12⟩, ⟨18, 30⟩, ⟨19, 20⟩] : List Span),
            ¬hole.covers n = true := by
  have hleft : (⟨3, 20⟩ : Span).without [⟨0, 4⟩, ⟨4, 6⟩, ⟨5, 10⟩, ⟨6, 8⟩, ⟨12, 12⟩, ⟨18, 30⟩, ⟨19, 20⟩] =
      [⟨10, 12⟩, ⟨12, 18⟩] := by decide
  refine ⟨hleft, ?_⟩
  rw [← hleft]
  exact (without_difference ⟨3, 20⟩ _ (by decide) (by decide)).2.2

end DashboardMarkup.Span
