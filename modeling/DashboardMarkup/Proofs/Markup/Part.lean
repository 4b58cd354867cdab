import DashboardMarkup.Proofs.Edit.Context

/-!
# Texts that a search passes through

A search goes through a document from front to back. `Part` is a text that it passes through as if it were a
tree, whatever follows.

* `Part.append`: parts one behind another.
* `part_forest`: a well-formed tree is one.
* `Part.find`: what is found in a part.
-/

namespace DashboardMarkup.Markup

open Text

variable {names : List String}

/-- **A search passes through a text**, whatever follows it, and reports elements that show some nodes. -/
def Part (names : List String) (s : List Char) (ns : List Node) : Prop :=
  ∀ before after behind : List Char, ∃ es : List Element,
    List.Forall₂ (Node.Shown (before ++ (s ++ (after ++ behind)))) ns es ∧
    scan (size before + size (s ++ after)) names (s ++ after) =
      (scan (size before + size (s ++ after)) names after).map (es ++ ·)

/-- A text in which nothing is found. -/
theorem part_of_skip {s : List Char}
    (h : ∀ limit after, scan limit names (s ++ after) = scan limit names after) : Part names s [] := by
  intro before after behind
  refine ⟨[], .nil, ?_⟩
  rw [h]
  cases scan (size before + size (s ++ after)) names after <;> rfl

theorem Part.append {s t : List Char} {ns ms : List Node} (hs : Part names s ns) (ht : Part names t ms) :
    Part names (s ++ t) (ns ++ ms) := by
  intro before after behind
  obtain ⟨es, hes, hfirst⟩ := hs before (t ++ after) behind
  obtain ⟨fs, hfs, hsecond⟩ := ht (before ++ s) after behind
  have hlimit : size (before ++ s) + size (t ++ after) = size before + size (s ++ (t ++ after)) := by
    simp only [size_append]
    omega
  rw [hlimit] at hsecond
  refine ⟨es ++ fs, List.rel_append ?_ ?_, ?_⟩
  · simpa using hes
  · simpa using hfs
  · rw [List.append_assoc, hfirst, hsecond]
    cases scan (size before + size (s ++ (t ++ after))) names after with
    | error fault => rfl
    | ok found => simp [Except.map]

/-- **A search passes through a well-formed tree** and reports its elements. -/
theorem part_forest (hnames : ∀ name ∈ names, Searchable name) {f : Forest} (hf : f.WellFormed) :
    Part names f.chars (f.nodes names) := by
  intro before after behind
  exact ⟨_, shown_outermost names rfl, scan_forest hnames hf.nested (hf.plain.others names)
    (closes_of_plain hnames hf.nested hf.plain after) rfl⟩

/-- In a part, a search finds what it reports on its way through. -/
theorem Part.find {s : List Char} {ns : List Node} (h : Part names s ns) (before behind : List Char) :
    ∃ es, Markup.find (before ++ (s ++ behind)) ⟨size before, size before + size s⟩ names = .ok es ∧
      List.Forall₂ (Node.Shown (before ++ (s ++ behind))) ns es := by
  obtain ⟨es, hes, hscan⟩ := h before [] behind
  rw [List.append_nil, scan_nil] at hscan
  refine ⟨es, ?_, hes⟩
  rw [find_append, hscan]
  simp [Except.map]

/-- Nothing is found in no text. -/
theorem Part.nil_inv {ns : List Node} (h : Part names [] ns) : ns = [] := by
  obtain ⟨es, hes, hscan⟩ := h [] [] []
  rw [List.append_nil, scan_nil] at hscan
  have hnil : es = [] := by simpa [Except.map] using hscan
  rw [hnil] at hes
  exact List.forall₂_nil_right_iff.mp hes

/-- Without nodes there are no elements. -/
theorem outermost_eq_nil {f : Forest} (h : f.nodes names = []) (offset : Nat) :
    f.outermost names offset = [] := by
  have hlength := length_nodes names f offset
  rw [h] at hlength
  exact List.length_eq_zero_iff.mp hlength.symm

end DashboardMarkup.Markup
