import DashboardMarkup.Proofs.Document.Placed
import DashboardMarkup.Proofs.Markup.Thinned

/-!
# Dashboards from which widgets have been taken

Where widgets are taken out of an orderly board, its root, its groups and its styles stay, and on its grid the other
widgets stand in the same order. So it makes the same dashboard without the widgets that are gone.

* `Forest.IsOrderly`: a board with widgets that can be taken out of it.
* `exists_root_thinned`: what is left of it is a dashboard again.
* `gridNodes_thinned`, `dress_thinned`: what is left on its grid, and its theme.
* `widgets_left`, `groups_thinned`: its widgets and groups without those of an id.
-/

namespace DashboardMarkup

open Markup Text

/-- A group without the children of an id. -/
def Group.without (id : String) (g : Group) : Group :=
  { g with children := g.children.filter (· != id) }

namespace Markup

/-- **An orderly board**: widgets, dashboards, groups and styles stand apart from each other, no widget stands before
the dashboard, and no section in it. -/
structure Forest.IsOrderly (f : Forest) (root : Node) : Prop extends f.IsDashboard root where
  front : ∀ n ∈ (f.nodes ("dashboard" :: widgetNames)).head?, n.name = "dashboard"
  sections : root.content.nodes ["section"] = []
  canvas : ∀ s ∈ root.content.nodes CanvasStyle.scopeNames, s.name = "style" → s.content.nodes widgetNames = []
  styles : ∀ g ∈ root.content.nodes ["group"], ∀ s ∈ g.styles, s.content.nodes widgetNames = []

theorem sees_widgetNames : Sees widgetNames widgetNames := by decide

section

variable {gone kept : Node → Prop} {f g : Forest} {n n' root root' : Node}

/-! ## Styles -/

/-- A style without a widget in it stays as it is. -/
theorem rel_styles {searched : List String} (hsees : Sees searched widgetNames) (h : f.Thinned widgetNames gone kept g)
    (hnone : ∀ s ∈ f.nodes searched, s.name = "style" → s.content.nodes widgetNames = []) :
    List.Forall₂ Node.Alike ((f.nodes searched).filter (·.name == "style"))
      ((g.nodes searched).filter (·.name == "style")) := by
  have hstyles : ∀ s ∈ (f.nodes searched).filter (·.name == "style"), s ∈ f.nodes searched ∧ s.name = "style" :=
    fun s hs => ⟨List.mem_of_mem_filter hs, beq_iff_eq.mp (List.mem_filter.mp hs).2⟩
  have hkept := ((nodes_thinned hsees h).filter_name (· == "style")).rel_of_not_mem fun s hs => by
    rw [(hstyles s hs).2]
    exact foreign_style.not_mem
  refine ((List.forall₂_and_left _ _).mpr ⟨hstyles, hkept⟩).imp fun s s' hs => ?_
  obtain ⟨⟨hmem, hname⟩, hthinned⟩ := hs
  exact hthinned.alike_of_nil (hnone s hmem hname)

theorem objects_alike {ss ss' : List Node} (h : List.Forall₂ Node.Alike ss ss') :
    (ss'.filterMap fun s => styleObject? s.content.chars) = ss.filterMap fun s => styleObject? s.content.chars := by
  induction h with
  | nil => rfl
  | cons hs _ ih => rw [List.filterMap_cons, List.filterMap_cons, styleObject?_respaced hs.text, ih]

/-! ## The widgets that are left -/

/-- The widgets of nodes that differ by superfluous breaks. -/
theorem widgets_alike {ns ns' : List Node} (h : List.Forall₂ Node.Alike ns ns')
    (hwell : ∀ n ∈ ns, n.content.WellFormed) (hwell' : ∀ n ∈ ns', n.content.WellFormed) :
    ns'.filterMap Node.widget? = ns.filterMap Node.widget? := by
  induction h with
  | nil => rfl
  | cons hn _ ih =>
    obtain ⟨hfirst, hwell⟩ := List.forall_mem_cons.mp hwell
    obtain ⟨hfirst', hwell'⟩ := List.forall_mem_cons.mp hwell'
    rw [List.filterMap_cons, List.filterMap_cons, widget?_alike hn hfirst hfirst', ih hwell hwell']

theorem carries_alike (id : String) (h : n.Alike n') : n'.carries id = n.carries id := by
  unfold Node.carries
  rw [h.attrs]

/-- **If just nodes with an id are gone, the widgets with other ids are left**, in their order. -/
theorem others_left {id : String} {ns ns' : List Node} (h : Left widgetNames gone kept ns ns')
    (hnames : ∀ n ∈ ns, n.name ∈ widgetNames) (hgone : ∀ n, gone n → n.carries id = true)
    (hwell : ∀ n ∈ ns, n.content.WellFormed) (hwell' : ∀ n ∈ ns', n.content.WellFormed) :
    (ns'.filterMap Node.widget?).filter (·.id != id) = (ns.filterMap Node.widget?).filter (·.id != id) := by
  rw [filterMap_not_carries hwell, filterMap_not_carries hwell']
  exact widgets_alike (h.rel_filter hnames hgone fun n n' => carries_alike id)
    (fun n hn => hwell n (List.mem_of_mem_filter hn)) fun n hn => hwell' n (List.mem_of_mem_filter hn)

/-- If all of them are gone, no other widgets are left. -/
theorem widgets_left {id : String} {ns ns' : List Node} (h : Left widgetNames gone kept ns ns')
    (hnames : ∀ n ∈ ns, n.name ∈ widgetNames) (hgone : ∀ n, gone n → n.carries id = true)
    (hkept : ∀ n, kept n → n.carries id = false) (hwell : ∀ n ∈ ns, n.content.WellFormed)
    (hwell' : ∀ n ∈ ns', n.content.WellFormed) :
    ns'.filterMap Node.widget? = (ns.filterMap Node.widget?).filter (·.id != id) := by
  rw [← others_left h hnames hgone hwell hwell']
  refine (List.filter_eq_self.mpr fun w hw => ?_).symm
  obtain ⟨n', hn', hw⟩ := List.mem_filterMap.mp hw
  obtain ⟨n, hn, hthinned⟩ := h.exists_of_mem hn'
  obtain ⟨halike, hn⟩ := hthinned.alike (hnames n hn)
  have hcarries := carries_of_widget? (hwell' n' hn') hw id
  rw [carries_alike id halike, hkept n hn] at hcarries
  exact (Bool.not_eq_true' _).mpr hcarries.symm

/-! ## Groups -/

/-- The members of a group that are left. -/
theorem members_thinned (h : n.Thinned widgetNames gone kept n') (hname : n.name ∉ widgetNames) :
    Left widgetNames gone kept n.members n'.members := by
  unfold Node.members
  rw [← h.attrs]
  split
  · exact rel_loose foreign_style sees_widgetNames (h.content hname)
  · exact .nil

theorem groupStyle_thinned (h : n.Thinned widgetNames gone kept n') (hname : n.name ∉ widgetNames)
    (hstyles : ∀ s ∈ n.styles, s.content.nodes widgetNames = []) : n'.groupStyle? = n.groupStyle? := by
  have hrel : List.Forall₂ Node.Alike n.styles n'.styles :=
    rel_styles (by decide) (h.content hname) fun s hs hstyle =>
      hstyles s (List.mem_filter.mpr ⟨hs, beq_iff_eq.mpr hstyle⟩)
  unfold Node.groupStyle?
  rw [objects_alike hrel]

/-- **A group from which the widgets of an id are gone** is the group without these children. -/
theorem groupPart_thinned {id : String} (h : n.Thinned widgetNames gone kept n') (hname : n.name ∉ widgetNames)
    (hstyles : ∀ s ∈ n.styles, s.content.nodes widgetNames = []) (hgone : ∀ n, gone n → n.carries id = true)
    (hkept : ∀ n, kept n → n.carries id = false) (hwell : n.content.WellFormed) (hwell' : n'.content.WellFormed)
    (columns : Breakpoints Nat) :
    (n'.groupPart columns).group = (n.groupPart columns).group.map (Group.without id) := by
  have hmembers : n'.memberWidgets = n.memberWidgets.filter (·.id != id) :=
    widgets_left (rel_loose foreign_style sees_widgetNames (h.content hname)) (fun m => name_of_mem_loose) hgone hkept
      (fun m hm => wellFormed_of_mem_nodes hwell (List.mem_of_mem_filter hm))
      fun m hm => wellFormed_of_mem_nodes hwell' (List.mem_of_mem_filter hm)
  unfold Node.groupPart
  rw [← h.attrs]
  cases n.attrs.text? "id" with
  | none => rfl
  | some given =>
    simp only [hmembers, groupStyle_thinned h hname hstyles, Option.map_some, Group.without, List.filter_map]
    rfl

/-- Groups that are given by some nodes and by what is left of them. -/
theorem filterMap_group_eq {R : Node → Node → Prop} {ns ns' : List Node} {columns : Breakpoints Nat} {id : String}
    (h : List.Forall₂ R ns ns') (hpart : ∀ n ∈ ns, ∀ n' ∈ ns', R n n' →
      (n'.groupPart columns).group = (n.groupPart columns).group.map (Group.without id)) :
    (ns'.map (Node.groupPart columns)).filterMap GroupPart.group =
      ((ns.map (Node.groupPart columns)).filterMap GroupPart.group).map (Group.without id) := by
  induction h with
  | nil => rfl
  | @cons n n' ns ns' hn _ ih =>
    have hfirst := hpart n List.mem_cons_self n' List.mem_cons_self hn
    have hrest := ih fun m hm m' hm' => hpart m (List.mem_cons_of_mem n hm) m' (List.mem_cons_of_mem n' hm')
    rw [List.map_cons, List.map_cons, List.filterMap_cons, List.filterMap_cons, hfirst, hrest]
    cases (n.groupPart columns).group with
    | none => rfl
    | some g => rfl

end

/-! ## Roots -/

/-- The widgets of a dashboard without sections are those on its grid. -/
theorem Forest.IsDashboard.widgets_of_sections {f : Forest} {root : Node} (h : f.IsDashboard root)
    (hsections : root.content.nodes ["section"] = []) :
    (Dashboard.parse f.chars).widgets = (root.gridNodes.filterMap Node.widget?).map root.dress := by
  have hnone : root.content.rowParts = [] := by
    unfold Forest.rowParts
    rw [hsections]
    rfl
  rw [h.widgets, hnone, placedWidgets_eq h.inside, gridWidgets_eq, List.flatMap_nil, List.nil_append]

/-- A theme leaves the ids of widgets as they are. -/
theorem filter_dress (root : Node) (p : String → Bool) (ws : List Widget) :
    (ws.map root.dress).filter (fun w => p w.id) = (ws.filter fun w => p w.id).map root.dress := by
  have hids : (fun w : Widget => p w.id) ∘ root.dress = fun w => p w.id :=
    funext fun w => congrArg p (dress_keeps root w).id
  rw [List.filter_map, hids]

theorem Forest.IsDashboard.name_of_mem {f : Forest} {root n : Node} (h : f.IsDashboard root) (hn : n ∈ root.gridNodes) :
    n.name ∈ widgetNames :=
  name_of_mem_nodes (h.gridNodes_subperm.subset hn)

section

variable {gone kept : Node → Prop} {f g : Forest} {root root' : Node} (h : f.IsOrderly root)

include h

theorem Forest.IsOrderly.name_root : root.name = "dashboard" :=
  List.mem_singleton.mp (name_of_mem_nodes (List.mem_of_mem_head? h.first))

theorem Forest.IsOrderly.name_root_not_mem : root.name ∉ widgetNames := by
  rw [h.name_root]
  exact foreign_dashboard.not_mem

variable (hroot : root.Thinned widgetNames gone kept root')

include hroot

/-- Its groups. -/
theorem rel_groups : List.Forall₂ (Node.Thinned widgetNames gone kept) (root.content.nodes ["group"])
    (root'.content.nodes ["group"]) :=
  rel_nodes_left foreign_group sees_widgetNames h.inside (hroot.content h.name_root_not_mem)

/-- **What is left on its grid.** -/
theorem gridNodes_thinned : Left widgetNames gone kept root.gridNodes root'.gridNodes := by
  have hgroups := (List.forall₂_and_left (p := fun n : Node => n ∈ root.content.nodes ["group"]) _ _).mpr
    ⟨fun n hn => hn, rel_groups h hroot⟩
  refine (Left.flatMap hgroups fun n n' hn => members_thinned hn.2 ?_).append
    (rel_loose foreign_group sees_widgetNames (hroot.content h.name_root_not_mem))
  rw [List.mem_singleton.mp (name_of_mem_nodes hn.1)]
  exact foreign_group.not_mem

/-- **Its theme** is the same. -/
theorem dress_thinned : root'.dress = root.dress := by
  have hobjects : root'.canvasObjects = root.canvasObjects :=
    objects_alike (rel_styles (by decide) (hroot.content h.name_root_not_mem) h.canvas)
  unfold Node.dress Node.theme?
  rw [hobjects, hroot.attrs]

/-- **Its groups are those without the children of an id**, if just the nodes with this id are gone. -/
theorem groups_thinned {id : String} (hgone : ∀ n, gone n → n.carries id = true)
    (hkept : ∀ n, kept n → n.carries id = false) (hwell : root.content.WellFormed) (hwell' : root'.content.WellFormed) :
    root'.groups = root.groups.map (Group.without id) := by
  unfold Node.groups
  rw [← hroot.attrs]
  refine filterMap_group_eq (rel_groups h hroot) fun n hn n' hn' hthinned => ?_
  have hname : n.name ∉ widgetNames := by
    rw [List.mem_singleton.mp (name_of_mem_nodes hn)]
    exact foreign_group.not_mem
  exact groupPart_thinned hthinned hname (h.styles n hn) hgone hkept (wellFormed_of_mem_nodes hwell hn)
    (wellFormed_of_mem_nodes hwell' hn') _

omit hroot in
/-- **What is left of an orderly board is a dashboard with the widgets that are left on its grid.** -/
theorem exists_root_thinned (hthinned : f.Thinned widgetNames gone kept g) (hg : g.WellFormed)
    (huntagged : Template.Untagged g.chars) (hmarkup : Dashboard.isMarkup g.chars = true) :
    ∃ root', root.Thinned widgetNames gone kept root' ∧ g.IsDashboard root' ∧
      (Dashboard.parse g.chars).widgets = (root'.gridNodes.filterMap Node.widget?).map root.dress := by
  have hrel := rel_nodes_left foreign_dashboard sees_widgetNames h.outside hthinned
  have hfirst := h.first
  cases hnodes : f.nodes ["dashboard"] with
  | nil =>
    rw [hnodes] at hfirst
    exact absurd hfirst (by simp)
  | cons n more =>
    rw [hnodes] at hfirst hrel
    obtain rfl := Option.some.inj hfirst
    cases hleft : g.nodes ["dashboard"] with
    | nil =>
      rw [hleft] at hrel
      cases hrel
    | cons root' more' =>
      rw [hleft] at hrel
      obtain ⟨hroot, -⟩ := List.forall₂_cons.mp hrel
      have hcontent := hroot.content h.name_root_not_mem
      have hboard : g.IsDashboard root' := by
        refine ⟨⟨hg, huntagged, hmarkup, by rw [hleft]; rfl, ?_⟩, ?_, ?_⟩
        · unfold Node.IsGrid
          rw [← hroot.attrs]
          exact h.grid
        · exact hthinned.apart foreign_dashboard sees_widgetNames h.outside
        · exact hcontent.apart foreign_group sees_widgetNames h.inside
      refine ⟨root', hroot, hboard, ?_⟩
      rw [hboard.widgets_of_sections (hcontent.nodes_eq_nil h.sections), dress_thinned h hroot]

end

end Markup

end DashboardMarkup
