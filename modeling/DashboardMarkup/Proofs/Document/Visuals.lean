import DashboardMarkup.Proofs.Document.Refused

/-!
# The widgets of a grid, each once

A grid finds the members of its groups and the elements outside all groups by different searches, the latter in
each piece between groups by itself. On a tidy board nothing is lost at the ends of these pieces, in wrappers or
in nested groups, and nothing is found twice.

* `Forest.IsTidy`: a board whose groups have ids and whose widgets and styles hold no elements of the grid.
* `Forest.IsTidy.parse_widgets`: its widgets, what is refused of it, and the children of its groups.
-/

namespace DashboardMarkup

open Markup Text

namespace Markup

/-- The outermost elements that make widgets in the groups of a root, group by group. -/
def Node.grouped (root : Node) : List Node :=
  (root.content.nodes ["group"]).flatMap fun g => g.content.nodes widgetNames

/-- The outermost elements that make widgets outside all groups of a root. -/
def Node.ungrouped (root : Node) : List Node :=
  root.content.loose "group" widgetNames

/-- **A tidy board**: its outermost groups have ids, no element that makes a widget holds a group, and no style of
a group holds an element that makes one. -/
structure Forest.IsTidy (f : Forest) (root : Node) : Prop extends f.IsBoard root where
  named : ∀ g ∈ root.content.nodes ["group"], (g.attrs.text? "id").isSome
  apart : root.content.Apart "group" widgetNames
  styles : ∀ g ∈ root.content.nodes ["group"], ∀ s ∈ g.styles, s.content.nodes widgetNames = []

/-- The children of groups are the widgets of their members. -/
theorem flatMap_children (columns : Breakpoints Nat) (gs : List Node) :
    ((gs.map (Node.groupPart columns)).filterMap GroupPart.group).flatMap Group.children =
      ((gs.flatMap Node.members).filterMap Node.widget?).map Widget.id := by
  induction gs with
  | nil => rfl
  | cons g gs ih =>
    rw [List.map_cons, List.flatMap_cons, List.filterMap_append, List.map_append, ← ih, ← widgets_groupPart columns]
    unfold Node.groupPart
    cases g.attrs.text? "id" with
    | none => rfl
    | some id => rfl

namespace Forest.IsTidy

variable {f : Forest} {root : Node} (h : f.IsTidy root)

include h

/-- The members of a group are all elements in it that make widgets. -/
theorem members_eq {g : Node} (hg : g ∈ root.content.nodes ["group"]) : g.members = g.content.nodes widgetNames := by
  unfold Node.members
  rw [if_pos (h.named g hg)]
  refine loose_eq_nodes foreign_style fun n hn hname => h.styles g hg n ?_
  exact List.mem_filter.mpr ⟨hn, beq_iff_eq.mpr hname⟩

theorem gridNodes_eq : root.gridNodes = root.grouped ++ root.ungrouped := by
  unfold Node.gridNodes Node.grouped Node.ungrouped
  rw [List.flatMap_congr fun g hg => h.members_eq hg]

/-- **No element is lost or found twice.** -/
theorem perm_nodes : (root.grouped ++ root.ungrouped).Perm (root.content.nodes widgetNames) :=
  (perm_apart foreign_group h.apart).symm

theorem wellFormed_of_mem {n : Node} (hn : n ∈ root.grouped ++ root.ungrouped) : n.content.WellFormed :=
  wellFormed_of_mem_nodes h.wellFormed_root (h.perm_nodes.subset hn)

theorem placedWidgets_eq : root.placedWidgets = (root.grouped ++ root.ungrouped).filterMap Node.widget? := by
  rw [DashboardMarkup.Markup.placedWidgets_eq h.apart, gridWidgets_eq, h.gridNodes_eq]

/-- The children of all groups are the widgets in them. -/
theorem children_groups :
    root.groups.flatMap Group.children = (root.grouped.filterMap Node.widget?).map Widget.id := by
  unfold Node.groups Node.grouped
  rw [flatMap_children, List.flatMap_congr fun g hg => h.members_eq hg]

/-- **The problems of a tidy board that refuse widgets**, in order, are those of the elements that make none. -/
theorem refused : ((Dashboard.parse f.chars).problems.map Problem.cause).filter Cause.refuses =
    (root.grouped ++ root.ungrouped).filterMap Node.refusal? := by
  obtain ⟨notes, hread⟩ := gives_readDocument h.wellFormed h.first h.grid
  have hrefused := refuses_readDocument h.wellFormed h.first h.grid _ notes hread
  rw [strays_eq_loose (by decide) h.apart] at hrefused
  have hproblems : (Dashboard.parse f.chars).problems = notes.map (Problem.ofNote f.chars) := by
    unfold Dashboard.parse Dashboard.read Dashboard.ofDocument
    rw [Template.resolve_untagged h.untagged, if_pos h.markup, hread]
  rw [hproblems, List.map_map, ← h.gridNodes_eq]
  exact hrefused

/-- **The grid of a tidy board** gives the widgets of its groups before those outside. -/
theorem readGrid_widgets :
    ∃ start body placement, Root.find f.chars = .ok ⟨root.attrs, start, body⟩ ∧
      (Placement.readGrid f.chars root.attrs body).Gives placement ∧
      placement.widgets = (root.grouped ++ root.ungrouped).filterMap Node.widget? := by
  obtain ⟨e, hshown, hfind⟩ := exists_root h.wellFormed h.first
  obtain ⟨before, behind, hdoc, hspan⟩ := hshown.content
  have hplacement := gives_readGrid h.wellFormed_root before behind root.attrs
  rw [← hdoc, ← hspan] at hplacement
  exact ⟨e.start, e.content, _, hfind, hplacement, h.placedWidgets_eq⟩

/-- **The widgets of a tidy board.** Its grid gives those of its groups, group by group, before those outside all
groups; behind those of its sections, and under its theme, they are the widgets of the dashboard. Together their
elements are the outermost ones that make widgets, each once. Each of them makes a widget or has a reason to make
none, and the dashboard has exactly these reasons among its problems. The children of all groups are the ids of
the widgets in them. -/
theorem parse_widgets :
    (∃ start body placement, Root.find f.chars = .ok ⟨root.attrs, start, body⟩ ∧
      (Placement.readGrid f.chars root.attrs body).Gives placement ∧
      placement.widgets = (root.grouped ++ root.ungrouped).filterMap Node.widget?) ∧
    (Dashboard.parse f.chars).widgets = (root.content.rowParts.flatMap RowPart.widgets ++
      (root.grouped ++ root.ungrouped).filterMap Node.widget?).map root.dress ∧
    (root.grouped ++ root.ungrouped).Perm (root.content.nodes widgetNames) ∧
    (∀ n ∈ root.grouped ++ root.ungrouped, n.refusal?.isSome = !n.widget?.isSome) ∧
    ((Dashboard.parse f.chars).problems.map Problem.cause).filter Cause.refuses =
      (root.grouped ++ root.ungrouped).filterMap Node.refusal? ∧
    ∃ groups, (Dashboard.parse f.chars).canvas.layout.groups? = some groups ∧
      groups.flatMap Group.children = (root.grouped.filterMap Node.widget?).map Widget.id := by
  refine ⟨h.readGrid_widgets, ?_, h.perm_nodes, fun n hn => isSome_refusal? (h.wellFormed_of_mem hn), h.refused,
    root.groups, ?_, h.children_groups⟩
  · rw [h.widgets, h.placedWidgets_eq]
  · rw [h.layout]
    rfl

end Forest.IsTidy

/-- A group with a key figure in a wrapper and a chart without a kind, and behind it a key figure without an id and a
line chart. -/
def mixedGrid : Forest :=
  (element "group" [⟨"id", "g"⟩]
    ((element "div" [] (element "kpi" [⟨"id", "a"⟩] .nil)).append (element "chart" [⟨"id", "b"⟩] .nil))).append
  ((element "kpi" [] .nil).append (element "widget" [⟨"id", "c"⟩, ⟨"type", "line"⟩] .nil))

theorem isTidy_mixedGrid : (board mixedGrid).IsTidy (boardRoot mixedGrid) where
  toIsBoard := isBoard_board (by decide +kernel) (by decide +kernel)
  named := by decide +kernel
  apart := by decide +kernel
  styles := by decide +kernel

/-- One widget and one refusal come from the group, and one of each from behind it. -/
theorem parse_widgets_mixedGrid :
    (board mixedGrid).IsTidy (boardRoot mixedGrid) ∧
      (Dashboard.parse (board mixedGrid).chars).widgets.map Widget.id = ["a", "c"] ∧
      ((Dashboard.parse (board mixedGrid).chars).problems.map Problem.cause).filter Cause.refuses =
        [.widgetWithoutKind "b", .widgetWithoutId] ∧
      ∃ groups, (Dashboard.parse (board mixedGrid).chars).canvas.layout.groups? = some groups ∧
        groups.flatMap Group.children = ["a"] := by
  obtain ⟨-, hwidgets, -, -, hrefused, groups, hgroups, hchildren⟩ := isTidy_mixedGrid.parse_widgets
  have hdress : Widget.id ∘ (boardRoot mixedGrid).dress = Widget.id := funext fun w => (dress_keeps _ w).id
  refine ⟨isTidy_mixedGrid, ?_, hrefused.trans (by decide +kernel), groups, hgroups,
    hchildren.trans (by decide +kernel)⟩
  rw [hwidgets, List.map_map, hdress]
  decide +kernel

end Markup

end DashboardMarkup
