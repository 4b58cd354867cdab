import DashboardMarkup.Proofs.Document.Placed
import DashboardMarkup.Proofs.Edit.Context

/-!
# A dashboard with a changed widget

An edit that writes the element of a widget anew changes the tree in one place. The root and the groups around
the place stay, with the place changed in them, and so does the order of all widgets.

* `Swap`: a tree that is one widget changed for another one that is, with the same tag.
* `Refilled`: what becomes of a node.
* `Forest.IsDashboard.refill`: the document is a dashboard as before.
* `gridNodes_swap`: the new widget stands in it where the old one did.
-/

namespace DashboardMarkup.Markup

open Text

/-! ## Nodes around a place -/

/-- **What a search finds around a place is related** if this holds of elements that stay, of those around the
place, and of what the search finds in the place if it gets there. -/
theorem rel_nodes_fill {names clear : List String} {R : Node → Node → Prop} {x y : Forest}
    (hsame : ∀ n, R n n)
    (haround : ∀ name attrs (c : Context), c.Clear clear → R ⟨name, attrs, c.fill x⟩ ⟨name, attrs, c.fill y⟩)
    {c : Context} (hc : c.Clear clear)
    (h : c.Clear names → List.Forall₂ R (x.nodes names) (y.nodes names)) :
    List.Forall₂ R ((c.fill x).nodes names) ((c.fill y).nodes names) := by
  have hrefl : ∀ ns : List Node, List.Forall₂ R ns ns := fun ns => List.forall₂_same.mpr fun n _ => hsame n
  induction c with
  | here rest =>
    rw [Context.fill, Context.fill, Forest.nodes_append, Forest.nodes_append]
    exact List.rel_append (h trivial) (hrefl _)
  | text t c ih => exact ih hc h
  | comment t c ih => exact ih hc h
  | single tag gap c ih => exact List.rel_append (hrefl _) (ih hc h)
  | beside tag children close c ih => exact List.rel_append (hrefl _) (ih hc h)
  | inside tag c close rest ih =>
    refine List.rel_append ?_ (hrefl _)
    cases hin : tag.nameIn? names with
    | none => exact ih hc.2 fun hclear => h ⟨hin, hclear⟩
    | some name => exact .cons (haround name tag.meant c hc.2) .nil

/-- Where nothing is found with one tree in a place, nothing is found with another one that holds nothing. -/
theorem nodes_fill_eq_nil {names : List String} {c : Context} {x y : Forest}
    (h : (c.fill x).nodes names = []) (hy : x.nodes names = [] → y.nodes names = []) :
    (c.fill y).nodes names = [] := by
  induction c with
  | here rest =>
    rw [Context.fill, Forest.nodes_append] at h ⊢
    obtain ⟨hx, hrest⟩ := List.append_eq_nil_iff.mp h
    rw [hy hx, hrest]
    rfl
  | text t c ih => exact ih h
  | comment t c ih => exact ih h
  | single tag gap c ih =>
    obtain ⟨hfront, hrest⟩ := List.append_eq_nil_iff.mp h
    exact List.append_eq_nil_iff.mpr ⟨hfront, ih hrest⟩
  | beside tag children close c ih =>
    obtain ⟨hfront, hrest⟩ := List.append_eq_nil_iff.mp h
    exact List.append_eq_nil_iff.mpr ⟨hfront, ih hrest⟩
  | inside tag c close rest ih =>
    obtain ⟨hfront, hrest⟩ := List.append_eq_nil_iff.mp h
    refine List.append_eq_nil_iff.mpr ⟨?_, hrest⟩
    cases hin : tag.nameIn? names with
    | none =>
      rw [hin] at hfront
      exact ih hfront
    | some name =>
      rw [hin] at hfront
      exact absurd hfront (by simp)

/-- The outermost elements of one more name than those around a place. -/
theorem clear_cons {left : String} {names : List String} {c : Context} (hc : c.Clear names)
    (hleft : c.Clear [left]) : c.Clear (left :: names) := by
  induction c with
  | here rest => trivial
  | text t c ih => exact ih hc hleft
  | comment t c ih => exact ih hc hleft
  | single tag gap c ih => exact ih hc hleft
  | beside tag children close c ih => exact ih hc hleft
  | inside tag c close rest ih =>
    refine ⟨?_, ih hc.2 hleft.2⟩
    have hne : ¬lower tag.name = lower left.toList := fun hsame => by
      have hnone := hleft.1
      rw [nameIn?_cons, if_pos hsame] at hnone
      exact absurd hnone (by simp)
    rw [nameIn?_cons, if_neg hne]
    exact hc.1

/-! ## A changed widget -/

/-- **A tree that is one widget and another one with the same tag.** Dashboards and groups inside it are
sought in its content, and where there were none there are none. -/
structure Swap (x y : Forest) (old new : Node) : Prop where
  name_mem : old.name ∈ widgetNames
  name : new.name = old.name
  attrs : new.attrs = old.attrs
  widgets : x.nodes widgetNames = [old] ∧ y.nodes widgetNames = [new]
  outermost {left : String} : Foreign left widgetNames →
    x.nodes (left :: widgetNames) = [old] ∧ y.nodes (left :: widgetNames) = [new]
  inside {left : String} : Foreign left widgetNames →
    x.nodes [left] = old.content.nodes [left] ∧ y.nodes [left] = new.content.nodes [left]
  containers {left : String} : left ∈ containerNames → x.nodes [left] = [] → y.nodes [left] = []

/-- **What becomes of a node**: it stays, or holds the place, or is the widget. -/
inductive Refilled (x y : Forest) (old new : Node) : Node → Node → Prop
  | same (n : Node) : Refilled x y old new n n
  | around (name : String) (attrs : Attributes) {c : Context} : c.Clear widgetNames →
      Refilled x y old new ⟨name, attrs, c.fill x⟩ ⟨name, attrs, c.fill y⟩
  | widget : Refilled x y old new old new

/-- Two nodes with the same tag. -/
def SameTag (n n' : Node) : Prop :=
  n'.name = n.name ∧ n'.attrs = n.attrs

theorem SameTag.carries {n n' : Node} (h : SameTag n n') (id : String) : n'.carries id = n.carries id := by
  unfold Node.carries
  rw [h.2]

section

variable {x y : Forest} {old new : Node} (hswap : Swap x y old new)

include hswap

theorem Refilled.sameTag {n n' : Node} (h : Refilled x y old new n n') : SameTag n n' := by
  cases h with
  | same => exact ⟨rfl, rfl⟩
  | around name attrs hc => exact ⟨rfl, rfl⟩
  | widget => exact ⟨hswap.name, hswap.attrs⟩

/-- The elements that make widgets, with others that are outermost. -/
theorem Swap.rel_outermost {left : String} (hleft : Foreign left widgetNames) {c : Context}
    (hc : c.Clear widgetNames) :
    List.Forall₂ (Refilled x y old new) ((c.fill x).nodes (left :: widgetNames))
      ((c.fill y).nodes (left :: widgetNames)) := by
  refine rel_nodes_fill .same (fun name attrs c hc => .around name attrs hc) hc fun _ => ?_
  obtain ⟨hx, hy⟩ := hswap.outermost hleft
  rw [hx, hy]
  exact .cons .widget .nil

theorem Swap.rel_loose {left : String} (hleft : Foreign left widgetNames) {c : Context}
    (hc : c.Clear widgetNames) :
    List.Forall₂ (Refilled x y old new) ((c.fill x).loose left widgetNames)
      ((c.fill y).loose left widgetNames) :=
  List.rel_filter (p := fun n : Node => n.name != left) (q := fun n : Node => n.name != left)
    (fun n n' h => by simp only [(h.sameTag hswap).1]) (hswap.rel_outermost hleft hc)

variable {left : String} (hleft : Foreign left widgetNames) (hcontainer : left ∈ containerNames) {c : Context}
  (hc : c.Clear widgetNames) (hapart : (c.fill x).Apart left widgetNames)

include hleft hcontainer hc hapart

/-- The containers around the widget. -/
theorem Swap.rel_containers :
    List.Forall₂ (Refilled x y old new) ((c.fill x).nodes [left]) ((c.fill y).nodes [left]) := by
  refine rel_nodes_fill .same (fun name attrs c hc => .around name attrs hc) hc fun hclear => ?_
  -- a widget that is in none of them holds none of them
  have hmem : old ∈ (c.fill x).nodes (left :: widgetNames) := by
    rw [Context.nodes_fill (clear_cons hc hclear), (hswap.outermost hleft).1]
    simp
  have hne : old.name ≠ left := fun h => hleft.not_mem (h ▸ hswap.name_mem)
  have hempty : x.nodes [left] = [] := by
    rw [(hswap.inside hleft).1]
    exact hapart old hmem hne
  rw [hempty, hswap.containers hcontainer hempty]
  exact .nil

/-- No widget holds such a container afterwards. -/
theorem Swap.apart : (c.fill y).Apart left widgetNames := by
  intro n' hn' hne
  obtain ⟨n, hn, hrel⟩ := exists_of_mem_left (R := flip (Refilled x y old new))
    (hswap.rel_outermost hleft hc).flip hn'
  have hempty : n.content.nodes [left] = [] := hapart n hn (by rw [← (hrel.sameTag hswap).1]; exact hne)
  cases hrel with
  | same => exact hempty
  | around name attrs hc' => exact nodes_fill_eq_nil hempty (hswap.containers hcontainer)
  | widget =>
    rw [← (hswap.inside hleft).2]
    refine hswap.containers hcontainer ?_
    rw [(hswap.inside hleft).1]
    exact hempty

end

/-! ## The dashboard around it -/

section

variable {x y : Forest} {old new : Node} (hswap : Swap x y old new)

include hswap

/-- The nodes in a group. -/
theorem Swap.rel_members {g g' : Node} (h : Refilled x y old new g g') (hg : g.name = "group") :
    List.Forall₂ SameTag g.members g'.members := by
  have hrefl : ∀ ns : List Node, List.Forall₂ SameTag ns ns :=
    fun ns => List.forall₂_same.mpr fun n _ => ⟨rfl, rfl⟩
  cases h with
  | same => exact hrefl _
  | widget => exact absurd (hg ▸ hswap.name_mem) (by decide)
  | around name attrs hc =>
    unfold Node.members
    by_cases hid : (attrs.text? "id").isSome = true
    · rw [if_pos hid, if_pos hid]
      exact (hswap.rel_loose foreign_style hc).imp fun n n' h => h.sameTag hswap
    · rw [if_neg hid, if_neg hid]
      exact .nil

/-- The nodes on the grid of a root. -/
theorem Swap.rel_gridNodes {root root' : Node} (h : Refilled x y old new root root')
    (hroot : root.name = "dashboard") (hapart : root.content.Apart "group" widgetNames) :
    root'.content.Apart "group" widgetNames ∧ List.Forall₂ SameTag root.gridNodes root'.gridNodes := by
  cases h with
  | same => exact ⟨hapart, List.forall₂_same.mpr fun n _ => ⟨rfl, rfl⟩⟩
  | widget => exact absurd (hroot ▸ hswap.name_mem) (by decide)
  | @around name attrs c hc =>
    have hgroup : "group" ∈ containerNames := by decide
    refine ⟨hswap.apart foreign_group hgroup hc hapart, List.rel_append ?_ ?_⟩
    · have hgroups := hswap.rel_containers foreign_group hgroup hc hapart
      have hnames : ∀ g ∈ (c.fill x).nodes ["group"], g.name = "group" :=
        fun g hg => List.mem_singleton.mp (name_of_mem_nodes hg)
      refine List.rel_flatMap ((List.forall₂_and_left (p := fun g : Node => g.name = "group") _ _).mpr
        ⟨hnames, hgroups⟩) ?_
      exact fun g g' hg => hswap.rel_members hg.2 hg.1
    · exact (hswap.rel_loose foreign_group hc).imp fun n n' h => h.sameTag hswap

/-- **A dashboard with a changed widget is one as before.** -/
theorem Forest.IsDashboard.refill {c : Context} (hc : c.Clear widgetNames) {root : Node}
    (h : (c.fill x).IsDashboard root) (hwell : (c.fill y).WellFormed)
    (huntagged : Template.Untagged (c.fill y).chars) (hmarkup : Dashboard.isMarkup (c.fill y).chars = true) :
    ∃ root', (c.fill y).IsDashboard root' ∧ List.Forall₂ SameTag root.gridNodes root'.gridNodes := by
  have hdashboard : "dashboard" ∈ containerNames := by decide
  have hroots := hswap.rel_containers foreign_dashboard hdashboard hc h.outside
  have hfirst := h.first
  cases hxs : (c.fill x).nodes ["dashboard"] with
  | nil =>
    rw [hxs] at hfirst
    exact absurd hfirst (by simp)
  | cons n more =>
    rw [hxs] at hfirst hroots
    obtain rfl := Option.some.inj hfirst
    cases hys : (c.fill y).nodes ["dashboard"] with
    | nil =>
      rw [hys] at hroots
      cases hroots
    | cons root' more' =>
      rw [hys] at hroots
      obtain ⟨hroot, -⟩ := List.forall₂_cons.mp hroots
      have hmem : n ∈ (c.fill x).nodes ["dashboard"] := by
        rw [hxs]
        exact List.mem_cons_self
      have hname : n.name = "dashboard" := List.mem_singleton.mp (name_of_mem_nodes hmem)
      obtain ⟨hinside, hgrid⟩ := hswap.rel_gridNodes hroot hname h.inside
      refine ⟨root', ⟨⟨hwell, huntagged, hmarkup, by rw [hys]; rfl, ?_⟩,
        hswap.apart foreign_dashboard hdashboard hc h.outside, hinside⟩, hgrid⟩
      unfold Node.IsGrid
      rw [(hroot.sameTag hswap).2]
      exact h.grid

end

/-- What is part of a list with one element, and is not empty, is this list. -/
theorem eq_singleton_of_subperm {α : Type} {as : List α} {a : α} (h : as.Subperm [a]) (hne : as ≠ []) :
    as = [a] := by
  have hlength : as.length ≤ 1 := h.length_le
  cases as with
  | nil => exact absurd rfl hne
  | cons b more =>
    have hnil : more = [] := List.length_eq_zero_iff.mp (Nat.le_zero.mp (Nat.le_of_succ_le_succ hlength))
    rw [hnil, List.mem_singleton.mp (h.subset List.mem_cons_self)]

/-- A widget that is the only one to carry an id gives way to one that is. -/
theorem Swap.filter_carries {x y : Forest} {old new : Node} (hswap : Swap x y old new) {c : Context}
    (hc : c.Clear widgetNames) {id : String} (hcarries : old.carries id = true)
    (hone : (((c.fill x).nodes widgetNames).filter (·.carries id)).length = 1) :
    ((c.fill y).nodes widgetNames).filter (·.carries id) = [new] := by
  have hnew : new.carries id = true := by
    rw [SameTag.carries ⟨hswap.name, hswap.attrs⟩]
    exact hcarries
  rw [Context.nodes_fill hc, hswap.widgets.1] at hone
  rw [Context.nodes_fill hc, hswap.widgets.2]
  simp only [List.filter_append, List.filter_cons, if_pos hcarries, List.filter_nil, List.length_append,
    List.length_cons, List.length_nil] at hone
  have hleft : (c.left widgetNames).filter (·.carries id) = [] := List.length_eq_zero_iff.mp (by omega)
  have hright : (c.right widgetNames).filter (·.carries id) = [] := List.length_eq_zero_iff.mp (by omega)
  simp only [List.filter_append, List.filter_cons, if_pos hnew, List.filter_nil, hleft, hright,
    List.nil_append, List.append_nil]

/-- **If it is shown on the grid, then so is the new one, once.** -/
theorem gridNodes_swap {x y : Forest} {old new : Node} (hswap : Swap x y old new) {c : Context}
    (hc : c.Clear widgetNames) {id : String} (hcarries : old.carries id = true)
    (hone : (((c.fill x).nodes widgetNames).filter (·.carries id)).length = 1) {root root' : Node}
    (h : (c.fill y).IsDashboard root') (hgrid : List.Forall₂ SameTag root.gridNodes root'.gridNodes)
    (hshown : root.gridNodes.filter (·.carries id) ≠ []) :
    root'.gridNodes.filter (·.carries id) = [new] := by
  have hfilter := List.rel_filter (p := fun n : Node => n.carries id) (q := fun n : Node => n.carries id)
    (fun n n' hn => by simp only [hn.carries id]) hgrid
  have hsub := h.gridNodes_subperm.filter (·.carries id)
  rw [hswap.filter_carries hc hcarries hone] at hsub
  refine eq_singleton_of_subperm hsub fun hnil => hshown ?_
  rw [hnil] at hfilter
  exact List.forall₂_nil_right_iff.mp hfilter

end DashboardMarkup.Markup
