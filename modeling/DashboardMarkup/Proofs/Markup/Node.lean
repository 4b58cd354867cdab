import DashboardMarkup.Proofs.Markup.Forest
import Mathlib.Data.List.Forall2

/-!
# Nodes of a tree

The elements that a search reports have offsets, and these change with every edit. A `Node` is what is left
of an element without them: its name, its attributes, and the tree that is its content.

* `Node.Shown`: an element of a document shows a node.
* `shown_outermost`: the elements that a tree has, wherever it stands, show the nodes of the tree.
* `Node.Shown.find`: so do those that a search finds in the content of an element.
-/

namespace DashboardMarkup.Markup

open Text

/-- An element of a tree without its place. One that closes itself has no content. -/
structure Node where
  name : String
  attrs : Attributes
  content : Forest
  deriving DecidableEq

namespace Forest

/-- The outermost elements of some names without their places. -/
def nodes (names : List String) : Forest → List Node
  | nil => []
  | text _ rest => rest.nodes names
  | comment _ rest => rest.nodes names
  | single tag _ rest =>
    (match tag.nameIn? names with
      | some name => [⟨name, tag.meant, .nil⟩]
      | none => []) ++ rest.nodes names
  | paired tag children _ rest =>
    (match tag.nameIn? names with
      | some name => [⟨name, tag.meant, children⟩]
      | none => children.nodes names) ++ rest.nodes names

end Forest

/-- A partner of a member of a list that is related to another one. -/
theorem exists_of_mem_left {α β : Type} {R : α → β → Prop} {as : List α} {bs : List β}
    (h : List.Forall₂ R as bs) {a : α} (ha : a ∈ as) : ∃ b ∈ bs, R a b := by
  induction h with
  | nil => exact absurd ha List.not_mem_nil
  | cons hab _ ih =>
    rcases List.mem_cons.mp ha with rfl | ha
    · exact ⟨_, List.mem_cons_self, hab⟩
    · obtain ⟨b, hb, hR⟩ := ih ha
      exact ⟨b, List.mem_cons_of_mem _ hb, hR⟩

/-- An element of a document shows a node: it says what the node does, and its content is written out
there. -/
structure Node.Shown (doc : List Char) (n : Node) (e : Element) : Prop where
  name : e.name = n.name
  attrs : e.attrs = n.attrs
  closed : e.closed = true
  content : ∃ before behind, doc = before ++ (n.content.chars ++ behind) ∧
    e.content = ⟨size before, size before + size n.content.chars⟩
  innerText : e.innerText doc = .ok n.content.chars

/-- An element that closes itself. -/
theorem shown_single {doc : List Char} (name : String) (start : Nat) (attrs : Attributes)
    {before behind : List Char} (hdoc : doc = before ++ behind) :
    Node.Shown doc ⟨name, attrs, .nil⟩ ⟨name, start, size before, attrs, .selfClosing⟩ :=
  ⟨rfl, rfl, rfl, ⟨before, behind, hdoc, rfl⟩, rfl⟩

/-- An element around its content. -/
theorem shown_paired {doc : List Char} (name : String) (start stop : Nat) (attrs : Attributes)
    {before behind : List Char} {children : Forest}
    (hdoc : doc = before ++ (children.chars ++ behind)) :
    Node.Shown doc ⟨name, attrs, children⟩ ⟨name, start, size before, attrs,
      .paired ⟨size before, size before + size children.chars⟩ stop⟩ := by
  refine ⟨rfl, rfl, rfl, ⟨before, behind, hdoc, rfl⟩, ?_⟩
  unfold Element.innerText Element.inner? Span.text
  simp only
  rw [hdoc, Span.cut?_append]

/-- **The elements that a tree has in a document show its nodes**, wherever it stands. -/
theorem shown_outermost {doc : List Char} (names : List String) {f : Forest} {before behind : List Char}
    (hdoc : doc = before ++ (f.chars ++ behind)) :
    List.Forall₂ (Node.Shown doc) (f.nodes names) (f.outermost names (size before)) := by
  -- the induction is on the tree; what stands before and behind a part of it varies
  induction f generalizing before behind with
  | nil => exact .nil
  | text t more ih =>
    rw [Forest.outermost, ← size_append]
    exact @ih (before ++ t) behind (by rw [hdoc]; simp [Forest.chars])
  | comment t more ih =>
    rw [Forest.outermost, size_comment]
    exact @ih (before ++ ("<!--".toList ++ (t ++ "-->".toList))) behind
      (by rw [hdoc]; simp [Forest.chars])
  | single tag gap more ih =>
    have hdoc' : doc = (before ++ (tag.text ++ ('/' :: gap ++ ['>']))) ++ (more.chars ++ behind) := by
      rw [hdoc]
      simp [Forest.chars]
    rw [Forest.outermost, Forest.nodes, size_single]
    refine List.rel_append ?_ (ih hdoc')
    cases tag.nameIn? names with
    | none => exact .nil
    | some name => exact .cons (shown_single name _ _ hdoc') .nil
  | paired tag children close more ihc ih =>
    have hdoc' : doc = (before ++ (tag.text ++ ['>'])) ++
        (children.chars ++ (close.text ++ (more.chars ++ behind))) := by
      rw [hdoc]
      simp [Forest.chars]
    have hrest := @ih (before ++ (tag.text ++ ['>'] ++ (children.chars ++ close.text))) behind
      (by rw [hdoc]; simp [Forest.chars])
    rw [Forest.outermost, Forest.nodes, size_paired, size_open]
    refine List.rel_append ?_ hrest
    cases tag.nameIn? names with
    | none => exact ihc hdoc'
    | some name => exact .cons (shown_paired name _ _ _ hdoc') .nil

/-- A search in a well-formed part of a document finds elements that show the nodes of the part. -/
theorem find_nodes {names : List String} (hnames : ∀ name ∈ names, Searchable name) {f : Forest}
    (hf : f.WellFormed) (before behind : List Char) :
    ∃ found, find (before ++ (f.chars ++ behind)) ⟨size before, size before + size f.chars⟩ names =
        .ok found ∧
      List.Forall₂ (Node.Shown (before ++ (f.chars ++ behind))) (f.nodes names) found :=
  ⟨_, find_forest hnames hf before behind, shown_outermost names rfl⟩

/-- Likewise a search in the content of an element. -/
theorem Node.Shown.find {doc : List Char} {n : Node} {e : Element} (h : n.Shown doc e)
    (hf : n.content.WellFormed) {names : List String} (hnames : ∀ name ∈ names, Searchable name) :
    ∃ found, Markup.find doc e.content names = .ok found ∧
      List.Forall₂ (Node.Shown doc) (n.content.nodes names) found := by
  obtain ⟨before, behind, rfl, hspan⟩ := h.content
  rw [hspan]
  exact find_nodes hnames hf before behind

/-! ## The nodes of a well-formed tree -/

theorem wellFormed_nil : Forest.WellFormed .nil :=
  ⟨trivial, trivial⟩

/-- A well-formed tree is one in each node. -/
theorem wellFormed_of_mem_nodes {names : List String} {f : Forest} (hf : f.WellFormed) {n : Node}
    (h : n ∈ f.nodes names) : n.content.WellFormed := by
  obtain ⟨hnested, hplain⟩ := hf
  induction f with
  | nil => exact absurd h List.not_mem_nil
  | text t more ih => exact ih h hnested.2 hplain
  | comment t more ih => exact ih h hnested.2 hplain
  | single tag gap more ih =>
    rw [Forest.nodes] at h
    rcases List.mem_append.mp h with h | h
    · cases hin : tag.nameIn? names with
      | none =>
        rw [hin] at h
        exact absurd h List.not_mem_nil
      | some name =>
        rw [hin] at h
        rw [List.mem_singleton.mp h]
        exact wellFormed_nil
    · exact ih h hnested.2.2 hplain.2
  | paired tag children close more ihc ih =>
    obtain ⟨-, -, -, hchildren, hmore⟩ := hnested
    rw [Forest.nodes] at h
    rcases List.mem_append.mp h with h | h
    · cases hin : tag.nameIn? names with
      | none =>
        rw [hin] at h
        exact ihc h hchildren hplain.2.1
      | some name =>
        rw [hin] at h
        rw [List.mem_singleton.mp h]
        exact ⟨hchildren, hplain.2.1⟩
    · exact ih h hmore hplain.2.2

theorem name_of_mem_nodes {names : List String} {f : Forest} {n : Node} (h : n ∈ f.nodes names) :
    n.name ∈ names := by
  induction f with
  | nil => exact absurd h List.not_mem_nil
  | text t more ih => exact ih h
  | comment t more ih => exact ih h
  | single tag gap more ih =>
    rw [Forest.nodes] at h
    rcases List.mem_append.mp h with h | h
    · cases hin : tag.nameIn? names with
      | none =>
        rw [hin] at h
        exact absurd h List.not_mem_nil
      | some name =>
        rw [hin] at h
        rw [List.mem_singleton.mp h]
        exact List.mem_of_find?_eq_some hin
    · exact ih h
  | paired tag children close more ihc ih =>
    rw [Forest.nodes] at h
    rcases List.mem_append.mp h with h | h
    · cases hin : tag.nameIn? names with
      | none =>
        rw [hin] at h
        exact ihc h
      | some name =>
        rw [hin] at h
        rw [List.mem_singleton.mp h]
        exact List.mem_of_find?_eq_some hin
    · exact ih h

end DashboardMarkup.Markup
