import DashboardMarkup.Proofs.Markup.Node
import DashboardMarkup.Proofs.Text.Respaced

/-!
# Trees that differ by superfluous line breaks

A removal leaves out line breaks in text, in comments and between the parts of a tag. What stays are the
tags with what they say, and in each element a text that differs by superfluous breaks only.

* `Forest.Alike`: two such trees.
* `nodes_alike`: they have the same nodes, but for the breaks.
* `Twins`: two such nodes; `Twins.find`: so are those that a search finds in them, wherever they are shown.
-/

namespace DashboardMarkup.Markup

open Text

/-- Two tags say the same: they have one name, but for the case of its letters, and the same attributes. -/
structure WrittenTag.SaysAs (t t' : WrittenTag) : Prop where
  name : lower t.name = lower t'.name
  meant : t.meant = t'.meant

theorem WrittenTag.SaysAs.refl (t : WrittenTag) : t.SaysAs t :=
  ⟨rfl, rfl⟩

theorem WrittenTag.SaysAs.nameIn?_eq {t t' : WrittenTag} (h : t.SaysAs t') (names : List String) :
    t.nameIn? names = t'.nameIn? names := by
  unfold WrittenTag.nameIn?
  rw [h.name]

/-- **Two trees that differ by superfluous line breaks**, or in text outside all elements. -/
inductive Forest.Alike : Forest → Forest → Prop
  | nil : Alike .nil .nil
  | text (t t' : List Char) {rest rest' : Forest} : Alike rest rest' →
      Alike (.text t rest) (.text t' rest')
  | comment (t t' : List Char) {rest rest' : Forest} : Alike rest rest' →
      Alike (.comment t rest) (.comment t' rest')
  | single {tag tag' : WrittenTag} (gap gap' : List Char) {rest rest' : Forest} : tag.SaysAs tag' →
      Alike rest rest' → Alike (.single tag gap rest) (.single tag' gap' rest')
  | paired {tag tag' : WrittenTag} (close close' : WrittenClose) {children children' rest rest' : Forest} :
      tag.SaysAs tag' → Alike children children' → Respaced false children.chars children'.chars →
      Alike rest rest' → Alike (.paired tag children close rest) (.paired tag' children' close' rest')

theorem Forest.Alike.refl (f : Forest) : f.Alike f := by
  induction f with
  | nil => exact .nil
  | text t rest ih => exact .text t t ih
  | comment t rest ih => exact .comment t t ih
  | single tag gap rest ih => exact .single gap gap (.refl tag) ih
  | paired tag children close rest ihc ih =>
    exact .paired close close (.refl tag) ihc (Respaced.refl false children.chars) ih

/-- Two nodes that differ by superfluous line breaks. -/
structure Node.Alike (n n' : Node) : Prop where
  name : n.name = n'.name
  attrs : n.attrs = n'.attrs
  content : n.content.Alike n'.content
  text : Respaced false n.content.chars n'.content.chars

theorem Node.Alike.refl (n : Node) : n.Alike n :=
  ⟨rfl, rfl, .refl n.content, .refl false n.content.chars⟩

/-- **Trees that differ by superfluous breaks have nodes that do so**, in the same order. -/
theorem nodes_alike {f f' : Forest} (h : f.Alike f') (names : List String) :
    List.Forall₂ Node.Alike (f.nodes names) (f'.nodes names) := by
  induction h with
  | nil => exact .nil
  | text t t' _ ih => exact ih
  | comment t t' _ ih => exact ih
  | single gap gap' hsays _ ih =>
    rw [Forest.nodes, Forest.nodes, hsays.nameIn?_eq, hsays.meant]
    refine List.rel_append ?_ ih
    split
    · exact .cons (.refl _) .nil
    · exact .nil
  | paired close close' hsays hchildren htext _ ihc ih =>
    rw [Forest.nodes, Forest.nodes, hsays.nameIn?_eq, hsays.meant]
    refine List.rel_append ?_ ih
    split
    · exact .cons ⟨rfl, rfl, hchildren, htext⟩ .nil
    · exact ihc

/-- Two well-formed nodes that differ by superfluous breaks. -/
structure Twins where
  left : Node
  right : Node
  left_wellFormed : left.content.WellFormed
  right_wellFormed : right.content.WellFormed
  alike : left.Alike right

namespace Twins

/-- A node beside itself. -/
def same (n : Node) (h : n.content.WellFormed) : Twins :=
  ⟨n, n, h, h, .refl n⟩

/-- An element shows one of two nodes. -/
def Shown (doc : List Char) (t : Twins) (e : Element) : Prop :=
  t.left.Shown doc e ∨ t.right.Shown doc e

variable {doc : List Char} {t : Twins} {e : Element}

theorem Shown.name (h : t.Shown doc e) : e.name = t.left.name := by
  rcases h with h | h
  · exact h.name
  · rw [t.alike.name]
    exact h.name

theorem Shown.attrs (h : t.Shown doc e) : e.attrs = t.left.attrs := by
  rcases h with h | h
  · exact h.attrs
  · rw [t.alike.attrs]
    exact h.attrs

/-- The content of either is written as that of the first, but for breaks. -/
theorem Shown.innerText (h : t.Shown doc e) :
    ∃ text, e.innerText doc = .ok text ∧ Respaced false t.left.content.chars text := by
  rcases h with h | h
  · exact ⟨_, h.innerText, .refl false _⟩
  · exact ⟨_, h.innerText, t.alike.text⟩

theorem exists_of_forall₂ {ns ns' : List Node} (h : List.Forall₂ Node.Alike ns ns')
    (hleft : ∀ n ∈ ns, n.content.WellFormed) (hright : ∀ n ∈ ns', n.content.WellFormed) :
    ∃ ts : List Twins, ts.map left = ns ∧ ts.map right = ns' := by
  induction h with
  | nil => exact ⟨[], rfl, rfl⟩
  | @cons n n' ns ns' hn _ ih =>
    obtain ⟨ts, hts, hts'⟩ := ih (fun m hm => hleft m (List.mem_cons_of_mem n hm))
      fun m hm => hright m (List.mem_cons_of_mem n' hm)
    refine ⟨⟨n, n', hleft n List.mem_cons_self, hright n' List.mem_cons_self, hn⟩ :: ts, ?_, ?_⟩
    · rw [List.map_cons, hts]
    · rw [List.map_cons, hts']

/-- **What a search finds in either of two nodes** shows one of two such nodes in turn. -/
theorem find (t : Twins) {names : List String} (hnames : ∀ name ∈ names, Searchable name) :
    ∃ ts : List Twins, ts.map left = t.left.content.nodes names ∧ ∀ doc e, t.Shown doc e →
      ∃ found, Markup.find doc e.content names = .ok found ∧ List.Forall₂ (Shown doc) ts found := by
  obtain ⟨ts, hleft, hright⟩ := exists_of_forall₂ (nodes_alike t.alike.content names)
    (fun n hn => wellFormed_of_mem_nodes t.left_wellFormed hn)
    fun n hn => wellFormed_of_mem_nodes t.right_wellFormed hn
  refine ⟨ts, hleft, fun doc e h => ?_⟩
  rcases h with h | h
  · obtain ⟨found, hfind, hshown⟩ := h.find t.left_wellFormed hnames
    rw [← hleft, List.forall₂_map_left_iff] at hshown
    exact ⟨found, hfind, hshown.imp fun s e hs => Or.inl hs⟩
  · obtain ⟨found, hfind, hshown⟩ := h.find t.right_wellFormed hnames
    rw [← hright, List.forall₂_map_left_iff] at hshown
    exact ⟨found, hfind, hshown.imp fun s e hs => Or.inr hs⟩

end Twins

end DashboardMarkup.Markup
