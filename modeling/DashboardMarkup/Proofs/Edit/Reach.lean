import DashboardMarkup.Proofs.Document.Placed
import DashboardMarkup.Proofs.Edit.Context
import DashboardMarkup.Proofs.Edit.ReadBack

/-!
# Widgets that the editor reaches

The walk of the editor goes into containers and not into widgets. In a well-formed document it reaches the
outermost elements that make widgets, and no others that do.

* `filter_reachedNodes`: of what the walk reaches, the elements that make widgets.
* `shown_elementsById`, `exists_node`: what is addressed by an id shows the nodes that carry it.
-/

namespace DashboardMarkup.Edit

open Markup Text

theorem searchable_of_mem_widgetNames : ∀ name ∈ searchedNames widgetNames, Searchable name := by
  decide

/-- A container is none of the elements that make widgets. -/
theorem nameIn?_searched (tag : WrittenTag) :
    (∃ name, tag.nameIn? (searchedNames widgetNames) = some name ∧ name ∉ widgetNames ∧
        containerNames.contains name = true ∧ tag.nameIn? widgetNames = none) ∨
      (tag.nameIn? (searchedNames widgetNames) = tag.nameIn? widgetNames ∧
        ∀ name, tag.nameIn? widgetNames = some name →
          name ∈ widgetNames ∧ containerNames.contains name = false) := by
  have hnames : searchedNames widgetNames = containerNames ++ widgetNames := by decide
  have happend : tag.nameIn? (searchedNames widgetNames) =
      (tag.nameIn? containerNames).or (tag.nameIn? widgetNames) := by
    rw [hnames]
    exact List.find?_append
  cases hcontainer : tag.nameIn? containerNames with
  | none =>
    refine Or.inr ⟨by rw [happend, hcontainer, Option.none_or], fun name hname => ?_⟩
    have hmem : name ∈ widgetNames := List.mem_of_find?_eq_some hname
    refine ⟨hmem, ?_⟩
    rw [← Bool.not_eq_true]
    exact fun h => not_container_of_mem_widgetNames name hmem (List.contains_iff_mem.mp h)
  | some name =>
    have hmem : name ∈ containerNames := List.mem_of_find?_eq_some hcontainer
    have hlower := @List.find?_some _ (fun name : String => lower tag.name == lower name.toList) _ _ hcontainer
    have hforeign : ∀ c ∈ containerNames, Foreign c widgetNames := by decide
    refine Or.inl ⟨name, by rw [happend, hcontainer, Option.some_or], (hforeign name hmem).not_mem,
      List.contains_iff_mem.mpr hmem, ?_⟩
    exact List.find?_eq_none.mpr fun s hs hsame =>
      hforeign name hmem s hs ((beq_iff_eq.mp hsame).symm.trans (beq_iff_eq.mp hlower))

/-- **Of what the walk reaches, the elements that make widgets** are the outermost ones. -/
theorem filter_reachedNodes (f : Forest) :
    (f.reachedNodes (searchedNames widgetNames)).filter (·.name ∈ widgetNames) =
      f.nodes widgetNames := by
  induction f with
  | nil => rfl
  | text t rest ih => exact ih
  | comment t rest ih => exact ih
  | single tag gap rest ih =>
    rw [Forest.reachedNodes, Forest.nodes, List.filter_append, ih]
    rcases nameIn?_searched tag with ⟨name, hall, hother, -, hnone⟩ | ⟨hall, hname⟩
    · simp [hall, hnone, hother]
    · rw [hall]
      cases hin : tag.nameIn? widgetNames with
      | none => rfl
      | some name => simp [(hname name hin).1]
  | paired tag children close rest ihc ih =>
    rw [Forest.reachedNodes, Forest.nodes, List.filter_append, List.filter_append, ih, ← List.append_assoc]
    rcases nameIn?_searched tag with ⟨name, hall, hother, hcontainer, hnone⟩ | ⟨hall, hname⟩
    · rw [admits_of_some hall, hcontainer, if_pos rfl, ihc, hnone]
      simp [hall, hother]
    · cases hin : tag.nameIn? widgetNames with
      | none =>
        rw [hin] at hall
        rw [admits_of_none hall, if_pos rfl, ihc]
        simp [hall]
      | some name =>
        rw [hin] at hall
        rw [admits_of_some hall, (hname name hin).2]
        simp [hall, (hname name hin).1]

theorem answers_shown {doc : List Char} {n : Node} {e : Element} (h : n.Shown doc e) (names : List String)
    (id : String) : e.answers names id = (names.contains n.name && n.carries id) := by
  unfold Element.answers Node.carries
  rw [h.name, h.attrs]

/-- **The widgets that are addressed by an id** show the nodes that carry it, in the same order. -/
theorem shown_elementsById {f : Forest} (hf : f.WellFormed) {id : String} {es : List Element}
    (h : elementsById f.chars widgetNames id = .ok es) :
    List.Forall₂ (Node.Shown f.chars) ((f.nodes widgetNames).filter (·.carries id)) es := by
  rw [elementsById_wellFormed searchable_of_mem_widgetNames hf] at h
  obtain rfl := Except.ok.inj h
  have hdoc : f.chars = [] ++ (f.chars ++ []) := by simp
  have hshown := shown_reached (searchedNames widgetNames) hdoc
  have hfilter := List.rel_filter (p := fun n : Node => widgetNames.contains n.name && n.carries id)
    (q := fun e : Element => e.answers widgetNames id)
    (fun n e hn => by simp only [answers_shown hn]) hshown
  have hnodes : (f.reachedNodes (searchedNames widgetNames)).filter
      (fun n => widgetNames.contains n.name && n.carries id) =
        (f.nodes widgetNames).filter (·.carries id) := by
    rw [← filter_reachedNodes, List.filter_filter]
    refine List.filter_congr fun n _ => ?_
    rw [Bool.and_comm, List.contains_eq_mem]
  rw [hnodes] at hfilter
  exact hfilter

/-- The only element with an id has the only node that carries it. -/
theorem exists_node {f : Forest} (hf : f.WellFormed) {id : String} {e : Element}
    (he : elementsById f.chars widgetNames id = .ok [e]) :
    e ∈ f.reached (searchedNames widgetNames) 0 ∧
      ∃ n, (f.nodes widgetNames).filter (·.carries id) = [n] ∧ n.Shown f.chars e := by
  constructor
  · have hreached := elementsById_wellFormed searchable_of_mem_widgetNames hf id
    have hmem : e ∈ (f.reached (searchedNames widgetNames) 0).filter (·.answers widgetNames id) := by
      rw [← Except.ok.inj (he.symm.trans hreached)]
      exact List.mem_singleton.mpr rfl
    exact (List.mem_filter.mp hmem).1
  · have hone := shown_elementsById hf he
    cases hfilter : (f.nodes widgetNames).filter (·.carries id) with
    | nil =>
      rw [hfilter] at hone
      cases hone
    | cons n more =>
      rw [hfilter] at hone
      obtain ⟨hn, hmore⟩ := List.forall₂_cons.mp hone
      rw [List.forall₂_nil_right_iff.mp hmore]
      exact ⟨n, rfl, hn⟩

/-- No widget stands around a place that the walk reaches. -/
theorem clear_of_admitted {c : Context} (h : c.Admitted (searchedNames widgetNames)) :
    c.Clear widgetNames := by
  induction c with
  | here rest => trivial
  | text t c ih => exact ih h
  | comment t c ih => exact ih h
  | single tag gap c ih => exact ih h
  | beside tag children close c ih => exact ih h
  | inside tag c close rest ih =>
    obtain ⟨hadmits, hc⟩ := h
    refine ⟨?_, ih hc⟩
    rcases nameIn?_searched tag with ⟨name, -, -, -, hnone⟩ | ⟨hall, hname⟩
    · exact hnone
    · cases hin : tag.nameIn? widgetNames with
      | none => rfl
      | some name =>
        rw [hin] at hall
        rw [admits_of_some hall, (hname name hin).2] at hadmits
        exact absurd hadmits (by decide)

end DashboardMarkup.Edit
