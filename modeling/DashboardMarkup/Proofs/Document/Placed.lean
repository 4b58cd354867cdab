import DashboardMarkup.Proofs.Document.Filled
import DashboardMarkup.Proofs.Document.Whole
import DashboardMarkup.Proofs.Markup.Apart
import DashboardMarkup.Proofs.Markup.Rendered
import Mathlib.Data.List.Perm.Subperm

/-!
# Widgets and where they are written

A dashboard on a grid shows the widgets of some nodes of the document: those of its groups and those outside
all groups. Each of these is one of the outermost elements that make widgets, and none of them is shown twice.

* `Node.source?`: the data source that the blocks in a node give.
* `widget?_eq_some`: what a widget has from its node.
* `gridNodes_subperm`: the nodes of a dashboard are some of those that make widgets.
* `widgets_of_id`: the widgets with an id are those of the nodes that carry it.
-/

namespace DashboardMarkup

open Markup Text

namespace Markup

/-- Whether a node carries an id, as the editor compares it. -/
def Node.carries (id : String) (n : Node) : Bool :=
  (n.attrs.get? "id").map trimmed == some id

/-- The names and attributes of the blocks in a node. -/
def Node.blocks (n : Node) : List (String × Attributes) :=
  (n.content.nodes blockNames).map fun b => (b.name, b.attrs)

/-- The data source that the blocks in a node give: the last one counts. -/
def Node.source? (n : Node) : Option DataSource :=
  lastSource? n.blocks

/-- The id and kind of the widget that a node makes. -/
def Node.identity? (n : Node) : Option (String × WidgetKind) :=
  (Widget.identify n.alone).value?.join

/-- A node that is given an id carries it. -/
theorem carries_of_text {n : Node} {id : String} (h : n.attrs.text? "id" = some id) : n.carries id = true := by
  unfold Attributes.text? Attributes.first? at h
  unfold Node.carries
  cases hget : (n.attrs.get? "id").map trimmed with
  | none => simp [hget] at h
  | some given =>
    simp only [hget, List.filterMap_cons, List.filterMap_nil] at h
    rw [List.mem_singleton.mp (List.mem_of_find?_eq_some h)]
    exact beq_self_eq_true _

/-- A node that carries an id and is given one is given this one. -/
theorem text_of_carries {n : Node} {id given : String} (hcarries : n.carries id = true)
    (h : n.attrs.text? "id" = some given) : given = id := by
  have hsame := carries_of_text h
  unfold Node.carries at hcarries hsame
  rw [beq_iff_eq.mp hcarries] at hsame
  exact (Option.some.inj (beq_iff_eq.mp hsame)).symm

end Markup

theorem tagsOf_shown {doc : List Char} {ns : List Node} {es : List Element}
    (h : List.Forall₂ (Node.Shown doc) ns es) : tagsOf es = ns.map fun n => (n.name, n.attrs) := by
  induction h with
  | nil => rfl
  | cons hn _ ih =>
    unfold tagsOf at ih ⊢
    rw [List.map_cons, List.map_cons, ih, hn.name, hn.attrs]

section

variable {n : Node}

/-- What an element is identified as does not depend on its place. -/
theorem identify_value (e : Element) (h : e.name = n.name) (hattrs : e.attrs = n.attrs) :
    (Widget.identify e).Gives n.identity? := by
  unfold Node.identity? Widget.identify
  rw [h, hattrs]
  simp only [show n.alone.attrs = n.attrs from rfl, show n.alone.name = n.name from rfl]
  cases n.attrs.text? "id" with
  | none => exact (Reading.gives_note _ _).bind (Reading.gives_pure none)
  | some id =>
    simp only
    cases n.attrs.text? "type" with
    | none =>
      cases kindOfTag n.name with
      | none => exact (Reading.gives_note _ _).bind (Reading.gives_pure none)
      | some kind => exact Reading.gives_pure _
    | some given =>
      simp only
      cases WidgetKind.ofText? given with
      | none => exact (Reading.gives_note _ _).bind (Reading.gives_pure none)
      | some kind => exact Reading.gives_pure _

theorem identity?_congr {m : Node} (hname : m.name = n.name) (hattrs : m.attrs = n.attrs) :
    m.identity? = n.identity? := by
  have hsame : m.alone.attrs = n.alone.attrs ∧ m.alone.name = n.alone.name := ⟨hattrs, hname⟩
  unfold Node.identity?
  rw [(identify_value (n := n) m.alone hname hattrs).value?_eq,
    (identify_value (n := n) n.alone rfl rfl).value?_eq]

theorem text_of_identity {id : String} {kind : WidgetKind} (h : n.identity? = some (id, kind)) :
    n.attrs.text? "id" = some id := by
  have hgives := identify_value (n := n) n.alone rfl rfl
  rw [h] at hgives
  unfold Widget.identify at hgives
  simp only [show n.alone.attrs = n.attrs from rfl] at hgives
  cases hid : n.attrs.text? "id" with
  | none =>
    rw [hid] at hgives
    obtain ⟨_, -, hpure⟩ := Reading.exists_of_bind hgives
    exact absurd (Widget.eq_of_gives_pure hpure) (by simp)
  | some given =>
    rw [hid] at hgives
    simp only at hgives
    split at hgives
    · split at hgives
      · have heq := Widget.eq_of_gives_pure hgives
        rw [(Prod.mk.inj (Option.some.inj heq)).1]
      · obtain ⟨_, -, hpure⟩ := Reading.exists_of_bind hgives
        exact absurd (Widget.eq_of_gives_pure hpure) (by simp)
    · split at hgives
      · have heq := Widget.eq_of_gives_pure hgives
        rw [(Prod.mk.inj (Option.some.inj heq)).1]
      · obtain ⟨_, -, hpure⟩ := Reading.exists_of_bind hgives
        exact absurd (Widget.eq_of_gives_pure hpure) (by simp)

variable (hn : n.content.WellFormed)

include hn

/-- A node makes a widget if it has an id and a kind. -/
theorem isSome_widget? : n.widget?.isSome = n.identity?.isSome := by
  have hgives := (shown_alone n).widget hn
  obtain ⟨identity, hidentity, hnext⟩ := Reading.exists_of_bind hgives
  obtain rfl := hidentity.unique (identify_value n.alone rfl rfl)
  cases hid : n.identity? with
  | none =>
    rw [hid] at hnext
    rw [Widget.eq_of_gives_pure hnext]
    rfl
  | some identity =>
    rw [hid] at hnext
    obtain ⟨w, -, hpure⟩ := Reading.exists_of_bind hnext
    rw [Widget.eq_of_gives_pure hpure]
    rfl

/-- **What a widget has from its node**: its id, no row, and the data source that the blocks give. -/
theorem widget?_eq_some {w : Widget} (h : n.widget? = some w) :
    n.attrs.text? "id" = some w.id ∧ w.row = none ∧ w.dataSource = n.source? := by
  have hgives := (shown_alone n).widget hn
  rw [h] at hgives
  obtain ⟨identity, hidentity, hnext⟩ := Reading.exists_of_bind hgives
  obtain rfl := hidentity.unique (identify_value n.alone rfl rfl)
  cases hid : n.identity? with
  | none =>
    rw [hid] at hnext
    exact absurd (Widget.eq_of_gives_pure hnext) (by simp)
  | some identity =>
    obtain ⟨id, kind⟩ := identity
    rw [hid] at hnext
    obtain ⟨w', hblocks, hpure⟩ := Reading.exists_of_bind hnext
    obtain rfl := Option.some.inj (Widget.eq_of_gives_pure hpure)
    obtain ⟨blocks, hfind, hwid, hrow, hsource⟩ := Widget.filled_of_readBlocks hblocks
    obtain ⟨found, hfound, hshown⟩ := (shown_alone n).find hn (show ∀ s ∈ blockNames, Searchable s by decide)
    obtain rfl := Except.ok.inj (hfind.symm.trans hfound)
    refine ⟨?_, hrow, ?_⟩
    · rw [hwid]
      exact text_of_identity hid
    · rw [hsource, tagsOf_shown hshown]
      show (lastSource? n.blocks).or none = n.source?
      rw [Option.or_none]
      rfl

end

/-! ## The nodes of a dashboard -/

namespace Markup

/-- The nodes in a group that make widgets. Nothing is read of a group without an id. -/
def Node.members (n : Node) : List Node :=
  if (n.attrs.text? "id").isSome then n.content.loose "style" widgetNames else []

/-- The nodes on the grid of a root: those in its groups before those outside. -/
def Node.gridNodes (root : Node) : List Node :=
  (root.content.nodes ["group"]).flatMap Node.members ++ root.content.loose "group" widgetNames

theorem widgets_groupPart (columns : Breakpoints Nat) (n : Node) :
    (n.groupPart columns).widgets = n.members.filterMap Node.widget? := by
  unfold Node.groupPart Node.members
  cases n.attrs.text? "id" with
  | none => rfl
  | some id => rfl

theorem gridWidgets_eq (root : Node) : root.gridWidgets = root.gridNodes.filterMap Node.widget? := by
  unfold Node.gridWidgets Node.gridNodes
  rw [List.filterMap_append, List.flatMap_map]
  congr 1
  induction root.content.nodes ["group"] with
  | nil => rfl
  | cons g rest ih => rw [List.flatMap_cons, List.flatMap_cons, List.filterMap_append, ih, widgets_groupPart]

/-- **A board in which widgets stand apart**: no element that makes widgets holds a dashboard, and none in its
root holds a group. -/
structure Forest.IsDashboard (f : Forest) (root : Node) : Prop extends f.IsBoard root where
  outside : f.Apart "dashboard" widgetNames
  inside : root.content.Apart "group" widgetNames

theorem foreign_dashboard : Foreign "dashboard" widgetNames := by decide

theorem foreign_group : Foreign "group" widgetNames := by decide

theorem foreign_style : Foreign "style" widgetNames := by decide

/-- The nodes in a group are some of those in its content. -/
theorem members_sublist (n : Node) : n.members.Sublist (n.content.nodes widgetNames) := by
  unfold Node.members
  by_cases hid : (n.attrs.text? "id").isSome = true
  · rw [if_pos hid]
    exact loose_sublist foreign_style n.content
  · rw [if_neg hid]
    exact List.nil_sublist _

variable {f : Forest} {root : Node}

/-- The nodes on a grid are some of those in the content of the root. -/
theorem gridNodes_subperm_content (h : root.content.Apart "group" widgetNames) :
    root.gridNodes.Subperm (root.content.nodes widgetNames) :=
  ((List.Sublist.flatMap_right _ fun n _ => members_sublist n).append (.refl _)).subperm.trans (perm_apart foreign_group h).symm.subperm

/-- What stands in the root of a document stands in the document. -/
theorem content_subperm (hroot : (f.nodes ["dashboard"]).head? = some root)
    (h : f.Apart "dashboard" widgetNames) :
    (root.content.nodes widgetNames).Subperm (f.nodes widgetNames) := by
  refine List.Subperm.trans ?_ (perm_apart foreign_dashboard h).symm.subperm
  cases hnodes : f.nodes ["dashboard"] with
  | nil =>
    rw [hnodes] at hroot
    exact absurd hroot (by simp)
  | cons n more =>
    rw [hnodes] at hroot
    obtain rfl := Option.some.inj hroot
    rw [List.flatMap_cons, List.append_assoc]
    exact (List.sublist_append_left _ _).subperm

/-- **The nodes of a dashboard are some of those that make widgets**, each at most once. -/
theorem Forest.IsDashboard.gridNodes_subperm (h : f.IsDashboard root) :
    root.gridNodes.Subperm (f.nodes widgetNames) :=
  (gridNodes_subperm_content h.inside).trans (content_subperm h.first h.outside)

theorem Forest.IsDashboard.wellFormed_of_mem (h : f.IsDashboard root) {n : Node} (hn : n ∈ root.gridNodes) :
    n.content.WellFormed :=
  wellFormed_of_mem_nodes h.wellFormed (h.gridNodes_subperm.subset hn)

end Markup

/-! ## The widgets of a dashboard -/

section

variable {f : Forest} {root : Node}

/-- A widget has an id just if its node carries it. -/
theorem carries_of_widget? {n : Node} (hn : n.content.WellFormed) {w : Widget} (hw : n.widget? = some w)
    (id : String) : n.carries id = (w.id == id) := by
  obtain ⟨htext, -, -⟩ := widget?_eq_some hn hw
  rw [Bool.eq_iff_iff, beq_iff_eq]
  exact ⟨fun hcarries => text_of_carries hcarries htext, fun hid => carries_of_text (hid ▸ htext)⟩

/-- What is asked of the ids of widgets can be asked of their nodes. -/
theorem filter_filterMap_widget? {id : String} {ns : List Node} (hwell : ∀ n ∈ ns, n.content.WellFormed)
    (p : Bool → Bool) :
    (ns.filterMap Node.widget?).filter (fun w => p (w.id == id)) =
      (ns.filter fun n => p (n.carries id)).filterMap Node.widget? := by
  rw [List.filter_filterMap, List.filterMap_filter]
  refine List.filterMap_congr fun n hn => ?_
  cases hw : n.widget? with
  | none => simp
  | some w =>
    rw [carries_of_widget? (hwell n hn) hw, Option.filter_some]

/-- The widgets with an id are those of the nodes that carry it. -/
theorem filterMap_carries {id : String} {ns : List Node} (hwell : ∀ n ∈ ns, n.content.WellFormed) :
    (ns.filterMap Node.widget?).filter (·.id == id) = (ns.filter (·.carries id)).filterMap Node.widget? :=
  filter_filterMap_widget? hwell fun b => b

/-- The widgets without it are those of the other nodes. -/
theorem filterMap_not_carries {id : String} {ns : List Node} (hwell : ∀ n ∈ ns, n.content.WellFormed) :
    (ns.filterMap Node.widget?).filter (·.id != id) = (ns.filter fun n => !n.carries id).filterMap Node.widget? :=
  filter_filterMap_widget? hwell not

/-- **The widgets of a dashboard with an id**, those of sections left out, are those of the nodes on the grid
that carry the id, under the theme. -/
theorem widgets_of_id (h : f.IsDashboard root) (id : String) :
    (Dashboard.parse f.chars).widgets.filter (fun w => w.id == id && w.row.isNone) =
      ((root.gridNodes.filter (·.carries id)).filterMap Node.widget?).map root.dress := by
  obtain ⟨problems, hparse⟩ := parse_grid h.wellFormed h.first h.grid h.markup h.untagged
  have hroot := wellFormed_of_mem_nodes h.wellFormed (List.mem_of_mem_head? h.first)
  have hdress : (fun w : Widget => w.id == id && w.row.isNone) ∘ root.dress =
      fun w => w.id == id && w.row.isNone := by
    funext w
    have hkeeps := dress_keeps root w
    simp only [Function.comp, hkeeps.id, hkeeps.row]
  have hsections : (root.content.rowParts.flatMap RowPart.widgets).filter
      (fun w => w.id == id && w.row.isNone) = [] := by
    refine List.filter_eq_nil_iff.mpr fun w hw => ?_
    obtain ⟨p, hp, hwp⟩ := List.mem_flatMap.mp hw
    have hsome := row_of_mem_rowParts hroot hp hwp
    cases hr : w.row with
    | none =>
      rw [hr] at hsome
      exact absurd hsome (by simp)
    | some row => simp
  have hgrid : root.gridWidgets.filter (fun w => w.id == id && w.row.isNone) =
      (root.gridNodes.filterMap Node.widget?).filter (·.id == id) := by
    rw [gridWidgets_eq]
    refine List.filter_congr fun w hw => ?_
    obtain ⟨n, hn, hwn⟩ := List.mem_filterMap.mp hw
    obtain ⟨-, hnone, -⟩ := widget?_eq_some (h.wellFormed_of_mem hn) hwn
    rw [hnone]
    simp
  rw [hparse]
  show root.dashboard.widgets.filter _ = _
  rw [widgets_dashboard, placedWidgets_eq h.inside, List.filter_map, hdress, List.filter_append, hsections, hgrid, List.nil_append,
    filterMap_carries fun n hn => h.wellFormed_of_mem hn]

end

/-! ## A dashboard around some elements -/

namespace Markup

/-- An element as an edit writes it. -/
def element (name : String) (attrs : Attributes) (children : Forest) : Forest :=
  .paired (.rendered name attrs []) children ⟨name.toList, []⟩ .nil

theorem nodes_element {names : List String} {name : String} {attrs : Attributes}
    (h : (WrittenTag.rendered name attrs []).nameIn? names = some name) (children : Forest) :
    (element name attrs children).nodes names = [⟨name, attrs, children⟩] := by
  simp only [element, Forest.nodes, h, meant_rendered, List.append_nil]

theorem nodes_element_of_none {names : List String} {name : String} {attrs : Attributes}
    (h : (WrittenTag.rendered name attrs []).nameIn? names = none) (children : Forest) :
    (element name attrs children).nodes names = children.nodes names := by
  simp only [element, Forest.nodes, h, List.append_nil]

/-- The root of a dashboard on a grid. -/
def boardRoot (children : Forest) : Node :=
  ⟨"dashboard", [⟨"layout-mode", "grid"⟩], children⟩

/-- A dashboard on a grid. -/
def board (children : Forest) : Forest :=
  element "dashboard" [⟨"layout-mode", "grid"⟩] children

theorem isGrid_boardRoot (children : Forest) : (boardRoot children).IsGrid := by
  have hlayout : (Attributes.first? [⟨"layout-mode", "grid"⟩] ["layout-mode", "layoutMode"]).bind
      LayoutMode.ofText? = some .grid := by
    decide
  exact hlayout

/-- **A dashboard on a grid around some elements** is a board. -/
theorem isBoard_board {children : Forest} (hwell : (board children).WellFormed)
    (huntagged : Template.Untagged (board children).chars) : (board children).IsBoard (boardRoot children) := by
  refine ⟨hwell, huntagged, rfl, ?_, isGrid_boardRoot children⟩
  unfold board
  rw [nodes_element (by decide)]
  rfl

/-- No widget stands around it, and those in it stand apart if none of them holds a group. -/
theorem isDashboard_board {children : Forest} (hwell : (board children).WellFormed)
    (huntagged : Template.Untagged (board children).chars) (hapart : children.Apart "group" widgetNames) :
    (board children).IsDashboard (boardRoot children) := by
  refine ⟨isBoard_board hwell huntagged, ?_, hapart⟩
  intro n hn hne
  unfold board at hn
  rw [nodes_element (by decide)] at hn
  rw [List.mem_singleton.mp hn] at hne
  exact absurd rfl hne

end Markup

end DashboardMarkup
