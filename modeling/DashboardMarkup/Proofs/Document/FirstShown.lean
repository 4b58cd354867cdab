import DashboardMarkup.Proofs.Document.Quiet

/-!
# The first widget with an id

Who looks for a widget by its id gets the first one of the dashboard, and there the widgets of groups come before all
others. This is the first one of the document just where a group comes first: if a widget with the id stands in a group,
the first one has to.

* `Node.Leads`: no element with an id outside of groups precedes the first group that holds one.
* `widget?_eq`, `find?_of_leads`: the widget with an id, in the order of the grid and of the document.
-/

namespace DashboardMarkup

open Markup Text

/-! ## Lists with a part put first -/

section

variable {α : Type} {p q : α → Bool} {as : List α}

/-- **Where some members are put before all others, the first with a property stays the first** if it is one of them,
or none of them has it. -/
theorem find?_parted (h : ∀ a ∈ as, q a = true → p a = true → ∀ b ∈ as.find? p, q b = true) :
    (as.filter q ++ as.filter fun a => !q a).find? p = as.find? p := by
  induction as with
  | nil => rfl
  | cons a as ih =>
    by_cases hp : p a = true
    · by_cases hq : q a = true
      · simp [hp, hq]
      · -- no member with the property is put before this one
        have hnone : (as.filter q).find? p = none := by
          refine List.find?_eq_none.mpr fun b hb hpb => hq ?_
          obtain ⟨hmem, hqb⟩ := List.mem_filter.mp hb
          exact h b (List.mem_cons_of_mem a hmem) hqb hpb a (List.find?_cons_of_pos hp)
        rw [List.filter_cons_of_neg hq, List.find?_append, hnone, List.filter_cons_of_pos (by simpa using hq),
          List.find?_cons_of_pos hp, List.find?_cons_of_pos hp]
        rfl
    · have hrest := ih fun b hb hqb hpb c hc =>
        h b (List.mem_cons_of_mem a hb) hqb hpb c (by rwa [List.find?_cons_of_neg hp])
      rw [List.find?_cons_of_neg hp, ← hrest, List.find?_append, List.find?_append]
      by_cases hq : q a = true
      · simp [hp, hq]
      · simp [hp, hq]

/-- What is found first in some lists is in the first one in which there is something to find. -/
theorem find?_flatMap_eq_bind {β : Type} (f : α → List β) (p : β → Bool) (as : List α) :
    (as.flatMap f).find? p = (as.find? fun a => (f a).any p).bind fun a => (f a).find? p := by
  induction as with
  | nil => rfl
  | cons a as ih =>
    rw [List.flatMap_cons, List.find?_append, ih]
    cases hfirst : (f a).find? p with
    | none =>
      have hany : ¬(f a).any p = true := by simpa using hfirst
      rw [@List.find?_cons_of_neg _ (fun a => (f a).any p) a as hany]
      rfl
    | some b =>
      have hany : (f a).any p = true := List.any_eq_true.mpr ⟨b, List.mem_of_find?_eq_some hfirst, List.find?_some hfirst⟩
      rw [@List.find?_cons_of_pos _ (fun a => (f a).any p) a as hany, Option.bind_some, hfirst]
      rfl

end

namespace Markup

variable {f : Forest} {root : Node} {id : String}

/-! ## The order of the grid -/

/-- The outermost groups of a root, and the elements outside of them that make widgets. -/
def Node.entries (root : Node) : List Node :=
  root.content.nodes ("group" :: widgetNames)

/-- Whether an entry holds an element that carries an id. -/
def Node.holds (id : String) (n : Node) : Bool :=
  (n.held "group" widgetNames).any (·.carries id)

/-- **A group leads with an id**: if any group holds it, the first entry that holds it is a group. -/
def Node.Leads (id : String) (root : Node) : Prop :=
  ∀ n ∈ root.entries, n.name = "group" → n.holds id = true →
    ∀ first ∈ root.entries.find? (·.holds id), first.name = "group"

instance (id : String) (root : Node) : Decidable (root.Leads id) :=
  inferInstanceAs (Decidable (∀ n ∈ root.entries, _))

/-- **If a group leads, the first element with an id on the grid is the first one of the document.** -/
theorem find?_of_leads (h : root.content.Apart "group" widgetNames) (hleads : root.Leads id) :
    (root.grouped ++ root.ungrouped).find? (·.carries id) =
      (root.content.nodes widgetNames).find? (·.carries id) := by
  have hparted := @find?_parted _ (Node.holds id) (fun n => n.name == "group") root.entries
    fun n hn hgroup hholds first hfirst => beq_iff_eq.mpr (hleads n hn (beq_iff_eq.mp hgroup) hholds first hfirst)
  have hgrid : root.grouped ++ root.ungrouped = (root.entries.filter (·.name == "group") ++
      root.entries.filter fun n => !(n.name == "group")).flatMap (Node.held "group" widgetNames) :=
    inside_append_loose foreign_group h
  have hall : root.content.nodes widgetNames = root.entries.flatMap (Node.held "group" widgetNames) :=
    nodes_eq_flatMap foreign_group _
  rw [hgrid, hall, find?_flatMap_eq_bind, find?_flatMap_eq_bind]
  exact congrArg (Option.bind · _) hparted

/-! ## The widget with an id -/

/-- The widget with an id, of some elements that all make widgets. -/
theorem find?_widgets {ns : List Node} (hwell : ∀ n ∈ ns, n.content.WellFormed) (hmade : ∀ n ∈ ns, n.widget?.isSome) :
    (ns.filterMap Node.widget?).find? (·.id == id) = (ns.find? (·.carries id)).bind Node.widget? := by
  have hsame : ∀ n ∈ ns, Option.any (·.id == id) n.widget? = n.carries id := by
    intro n hn
    obtain ⟨w, hw⟩ := Option.isSome_iff_exists.mp (hmade n hn)
    rw [hw, carries_of_widget? (hwell n hn) hw]
    rfl
  rw [List.find?_filterMap, ← List.head?_filter, ← List.head?_filter, List.filter_congr hsame]

/-- **Who looks for the widget with an id gets the first one on the grid**, under the theme. -/
theorem widget?_eq (h : f.IsOrderly root) (hproblems : (Dashboard.parse f.chars).problems = []) (id : String) :
    (Dashboard.parse f.chars).widget? id =
      ((root.grouped ++ root.ungrouped).find? (·.carries id)).bind fun n => n.widget?.map root.dress := by
  have htidy := h.tidy hproblems
  have hdress : (fun w : Widget => w.id == id) ∘ root.dress = fun w => w.id == id :=
    funext fun w => congrArg (· == id) (dress_keeps root w).id
  unfold Dashboard.widget?
  rw [h.widgets_of_sections h.sections, htidy.gridNodes_eq, List.find?_map, hdress,
    find?_widgets (fun n => htidy.wellFormed_of_mem) fun n hn =>
      isSome_widget?_of_problems htidy hproblems n (htidy.perm_nodes.subset hn), Option.map_bind]
  rfl

end Markup

end DashboardMarkup
