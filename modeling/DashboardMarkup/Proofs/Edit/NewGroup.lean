import DashboardMarkup.Proofs.Document.Given
import DashboardMarkup.Proofs.Edit.Board
import DashboardMarkup.Proofs.Edit.Island
import DashboardMarkup.Proofs.Edit.Lone
import DashboardMarkup.Proofs.Edit.Reach

/-!
# New groups

A group that is added to a document on a grid comes last in its dashboard. What the document gives is as
before, and the new group with it.

* `NewGroup.tree`: the lines of a group as a tree.
* `NewGroup.groupPart_node`: the group that they give.
* `ensureGroup_ensures`: when a group is added, and what the document gives then.
* `ensureGroup_behind_root`: a dashboard that closes itself does not show it.
-/

namespace DashboardMarkup.Edit

open Markup Template Text

/-- **A text that can be written into an attribute and is read again as it is.** -/
structure Legible (s : String) : Prop where
  solid : Solid s
  plain : '<' ∉ s.toList
  untagged : Untagged s.toList

theorem legible_toString (n : Nat) : Legible (toString n) := by
  have hnot : ∀ c ∈ (toString n).toList, c ≠ '<' ∧ c ≠ '\x7b' := fun c hc => by
    have hdigit := isDigit_of_mem_toString hc
    constructor
    · rintro rfl
      exact absurd hdigit (by decide)
    · rintro rfl
      exact absurd hdigit (by decide)
  exact ⟨solid_toString n, fun h => (hnot _ h).1 rfl, untagged_of_not_mem fun h => (hnot _ h).2 rfl⟩

theorem Legible.settable {name value : String} (h : Legible value) (hname : AttributeName name)
    (huntagged : Untagged name.toList) : Settable ⟨name, value⟩ :=
  ⟨hname, h.plain, huntagged, h.untagged⟩

/-- **An object that can be written into a block and is read again as it is.** -/
structure Printable (o : Json.Object) : Prop where
  ne_nil : o ≠ []
  sorted : Json.Object.ofMembers o = o
  plain : '<' ∉ (Json.object o).compact
  untagged : Untagged (Json.object o).compact
  readsBack : Json.readObject (Json.object o).compact = .ok o

namespace NewGroup

/-- **A group that can be written**: what is asked for can be said in attributes. -/
structure Fits (g : NewGroup) : Prop where
  id : Legible g.id
  title : ∀ t ∈ g.title, Legible t
  columns : 0 < g.columns ∧ g.columns ≤ Whole.maxCount
  gapX : g.gapX ≤ Whole.maxCount
  gapY : g.gapY ≤ Whole.maxCount
  style : ∀ o ∈ g.style, Printable o

/-- The group that is asked for, on a grid with some columns. -/
def group (columns : Breakpoints Nat) (g : NewGroup) : Group where
  id := g.id
  title := some (g.title.getD g.id)
  orientation := g.orientation
  sizing := g.sizing
  columns := some ⟨g.columns, columns.tablet, columns.mobile⟩
  gapX := some g.gapX
  gapY := some g.gapY
  style := g.style

/-! ## The lines of a group -/

/-- The style block of a group as a tree. -/
def styleTree (g : NewGroup) : Forest :=
  match g.style with
  | none => .nil
  | some [] => .nil
  | some style => .text "\n    ".toList (island "style" (Json.object style).compact)

/-- The content of a group as a tree. -/
def inner (g : NewGroup) : Forest :=
  g.styleTree.append (.text "\n  ".toList .nil)

/-- The lines of a group as a tree. -/
def tree (g : NewGroup) : Forest :=
  .text "\n  ".toList ((element "group" g.attrs g.inner).append (.text ['\n'] .nil))

/-- The node of a group. -/
def node (g : NewGroup) : Node :=
  ⟨"group", g.attrs, g.inner⟩

theorem chars_styleTree (g : NewGroup) : g.styleTree.chars = g.styleLine := by
  unfold styleTree styleLine
  rcases g.style with _ | _ | ⟨m, more⟩
  · rfl
  · rfl
  · simp only [Forest.chars, styleBlock_eq]

theorem chars_tree (g : NewGroup) : g.tree.chars = g.lines := by
  unfold tree lines inner element
  rw [renderOpen_paired]
  simp [Forest.chars, Forest.chars_append, Forest.append, chars_styleTree, renderClose, WrittenClose.text]

theorem settable_attrs {g : NewGroup} (h : g.Fits) : ∀ a ∈ g.attrs, Settable a := by
  have htitle : Legible (g.title.getD g.id) := by
    cases ht : g.title with
    | none => exact h.id
    | some t => exact h.title t ht
  have hsizing : Legible g.sizing.name := by
    cases g.sizing
    · exact ⟨by decide, by decide, by decide⟩
    · exact ⟨by decide, by decide, by decide⟩
  have horientation : Legible g.orientation.name := by
    cases g.orientation
    · exact ⟨by decide, by decide, by decide⟩
    · exact ⟨by decide, by decide, by decide⟩
  intro a ha
  simp only [attrs, List.mem_cons, List.not_mem_nil, or_false] at ha
  rcases ha with rfl | rfl | rfl | rfl | rfl | rfl | rfl
  · exact h.id.settable (by decide) (by decide)
  · exact htitle.settable (by decide) (by decide)
  · exact hsizing.settable (by decide) (by decide)
  · exact horientation.settable (by decide) (by decide)
  · exact (legible_toString _).settable (by decide) (by decide)
  · exact (legible_toString _).settable (by decide) (by decide)
  · exact (legible_toString _).settable (by decide) (by decide)

theorem wellFormed_styleTree {g : NewGroup} (h : g.Fits) : g.styleTree.WellFormed := by
  unfold styleTree
  rcases hs : g.style with _ | _ | ⟨m, more⟩
  · exact wellFormed_nil
  · exact wellFormed_nil
  · have hisland := wellFormed_island (show TagName "style" by decide) (h.style _ hs).plain
    exact ⟨⟨by decide, hisland.nested⟩, hisland.plain⟩

theorem wellFormed_inner {g : NewGroup} (h : g.Fits) : g.inner.WellFormed :=
  Forest.wellFormed_append.mpr ⟨wellFormed_styleTree h, ⟨by decide, trivial⟩, trivial⟩

theorem wellFormed_tree {g : NewGroup} (h : g.Fits) : g.tree.WellFormed := by
  have hgroup := wellFormed_element (show TagName "group" by decide) (settable_attrs h) (wellFormed_inner h)
  have hbreak : (Forest.text ['\n'] .nil).WellFormed := ⟨⟨by decide, trivial⟩, trivial⟩
  have hall := Forest.wellFormed_append.mpr ⟨hgroup, hbreak⟩
  exact ⟨⟨by decide, hall.nested⟩, hall.plain⟩

theorem untagged_inner {g : NewGroup} (h : g.Fits) : Untagged g.inner.chars := by
  unfold inner
  rw [Forest.chars_append, chars_styleTree]
  unfold styleLine
  rcases hs : g.style with _ | _ | ⟨m, more⟩
  · decide
  · decide
  · have hblock : Shut (styleBlock (m :: more)) := by
      unfold styleBlock
      rw [List.append_assoc]
      exact Shut.around (by decide) (h.style _ hs).untagged (by decide)
    have hline : Shut ("\n    ".toList ++ styleBlock (m :: more)) := Shut.append (by decide) hblock
    exact hline.append_right (by decide)

/-- The lines make no mark of a template with what stands around them. -/
theorem shut_tree {g : NewGroup} (h : g.Fits) : Shut g.tree.chars := by
  have hgroup := shut_element (show TagName "group" by decide) (settable_attrs h) (untagged_inner h)
  have hchars : g.tree.chars = "\n  ".toList ++ ((element "group" g.attrs g.inner).chars ++ ['\n']) := by
    simp [tree, Forest.chars, Forest.chars_append]
  rw [hchars]
  exact Shut.append (by decide) (hgroup.append (by decide))

/-! ## What the lines give -/

/-- A search for groups finds the group. -/
theorem nodes_tree (g : NewGroup) {names : List String} (hin : sameIn? names "group" = some "group") :
    g.tree.nodes names = [g.node] := by
  unfold tree element node
  simp only [Forest.nodes, Forest.append, nameIn?_rendered, hin, meant_rendered, List.append_nil]

/-- Any other search finds nothing, unless it is one for style blocks. -/
theorem nodes_tree_eq_nil (g : NewGroup) {names : List String} (hin : sameIn? names "group" = none)
    (hstyle : WrittenTag.nameIn? ⟨"style".toList, [], []⟩ names = none) : g.tree.nodes names = [] := by
  have hinner : g.inner.nodes names = [] := by
    unfold inner
    rw [Forest.nodes_append]
    unfold styleTree
    rcases g.style with _ | _ | ⟨m, more⟩
    · rfl
    · rfl
    · simp only [Forest.nodes, island, hstyle, List.append_nil]
  unfold tree element
  simp only [Forest.nodes, Forest.append, nameIn?_rendered, hin, hinner, List.append_nil]

/-- No widget stands beside the group. -/
theorem strays_tree (g : NewGroup) (names : List String) : g.tree.strays "group" names = [] := by
  have hin : sameIn? ["group"] "group" = some "group" := by decide
  unfold tree element
  simp only [Forest.strays, Forest.append, nameIn?_rendered, hin, Option.isSome_some, if_true, List.append_nil]

/-- A walk for groups reaches it. -/
theorem mem_reachedNodes_tree (g : NewGroup) : g.node ∈ g.tree.reachedNodes (searchedNames ["group"]) := by
  have hin : sameIn? (searchedNames ["group"]) "group" = some "group" := by decide
  unfold tree element node
  simp only [Forest.reachedNodes, Forest.append, nameIn?_rendered, hin, meant_rendered, Option.toList_some,
    List.map_cons]
  exact List.mem_append_left _ List.mem_cons_self

theorem carries_node {g : NewGroup} (h : g.Fits) : g.node.carries g.id = true := by
  have hid : g.node.attrs.get? "id" = some g.id := rfl
  unfold Node.carries
  rw [hid, Option.map_some, h.id.solid.1]
  exact beq_self_eq_true _

/-- The style block gives the style. -/
theorem groupStyle?_node {g : NewGroup} (h : g.Fits) : g.node.groupStyle? = g.style := by
  have hnode : g.node.content = g.inner := rfl
  unfold Node.groupStyle? Node.styles
  rw [hnode]
  unfold inner
  rw [Forest.nodes_append]
  unfold styleTree
  rcases hs : g.style with _ | _ | ⟨m, more⟩
  · rfl
  · exact absurd rfl (h.style _ hs).ne_nil
  · have hprint := h.style _ hs
    have hbody : styleObject? (Json.object (m :: more)).compact = some (m :: more) := by
      unfold styleObject?
      rw [trim_compact, hprint.readsBack]
      exact if_pos (by rw [Json.compact]; rfl)
    have hin : WrittenTag.nameIn? ⟨"style".toList, [], []⟩ ("style" :: widgetNames) = some "style" := by decide
    have hblock : (Forest.text "\n    ".toList (island "style" (Json.object (m :: more)).compact)).nodes
        ("style" :: widgetNames) = [⟨"style", [], .text (Json.object (m :: more)).compact .nil⟩] :=
      nodes_island hin _
    rw [hblock]
    simp only [Forest.nodes, List.append_nil, List.filter_cons_of_pos, beq_self_eq_true, List.filter_nil,
      List.filterMap_cons, Forest.chars, hbody, List.filterMap_nil, List.foldl_cons, List.foldl_nil]
    exact congrArg some hprint.sorted

theorem memberWidgets_node (g : NewGroup) : g.node.memberWidgets = [] := by
  have hnode : g.node.content = g.inner := rfl
  unfold Node.memberWidgets Forest.loose
  rw [hnode]
  unfold inner
  rw [Forest.nodes_append]
  unfold styleTree
  rcases g.style with _ | _ | ⟨m, more⟩
  · rfl
  · rfl
  · have hin : WrittenTag.nameIn? ⟨"style".toList, [], []⟩ ("style" :: widgetNames) = some "style" := by decide
    rw [Forest.nodes, nodes_island hin]
    rfl

/-- What is said in attributes is read as it was asked for. -/
theorem ofAttributes_node {g : NewGroup} (h : g.Fits) (columns : Breakpoints Nat) :
    Group.ofAttributes g.id g.node.attrs columns = { g.group columns with style := none } := by
  have htitle : Solid (g.title.getD g.id) := by
    cases ht : g.title with
    | none => exact h.id.solid
    | some t => exact (h.title t ht).solid
  have horientation : Group.orientationOf (g.node.attrs.text? "orientation") = g.orientation := by
    have hsolid : Solid g.orientation.name := by cases g.orientation <;> decide
    rw [Attributes.text?_of_get? (show g.node.attrs.get? "orientation" = some g.orientation.name from rfl) hsolid]
    cases g.orientation <;> decide
  have hsizing : Group.sizingOf (g.node.attrs.text? "sizing") = g.sizing := by
    have hsolid : Solid g.sizing.name := by cases g.sizing <;> decide
    rw [Attributes.text?_of_get? (show g.node.attrs.get? "sizing" = some g.sizing.name from rfl) hsolid]
    cases g.sizing <;> decide
  have hcolumns : g.node.attrs.breakpoints "cols" columns = ⟨g.columns, columns.tablet, columns.mobile⟩ := by
    have hdesktop : g.node.attrs.positive? ("cols" ++ "-d") = some g.columns :=
      Attributes.positive?_of_get? rfl h.columns.1 h.columns.2
    have htablet : g.node.attrs.positive? ("cols" ++ "-t") = none := Attributes.positive?_of_get?_none rfl
    have hmobile : g.node.attrs.positive? ("cols" ++ "-m") = none := Attributes.positive?_of_get?_none rfl
    have hshared : g.node.attrs.positive? "cols" = none := Attributes.positive?_of_get?_none rfl
    unfold Attributes.breakpoints
    simp only [hdesktop, htablet, hmobile, hshared]
    rfl
  have hgapX : g.node.attrs.gapX? = some g.gapX := Attributes.count?_of_get? rfl h.gapX _
  have hgapY : g.node.attrs.gapY? = some g.gapY := Attributes.count?_of_get? rfl h.gapY _
  have hhas : ["cols", "cols-d", "cols-t", "cols-m"].any g.node.attrs.has = true := rfl
  unfold Group.ofAttributes
  rw [Attributes.text?_of_get? rfl htitle, horientation, hsizing, if_pos hhas, hcolumns, hgapX, hgapY]
  rfl

/-- **The group that the lines give** is the one that is asked for, without members. -/
theorem groupPart_node {g : NewGroup} (h : g.Fits) (columns : Breakpoints Nat) :
    g.node.groupPart columns = ⟨some (g.group columns), []⟩ := by
  have hid : g.node.attrs.text? "id" = some g.id := Attributes.text?_of_get? rfl h.id.solid
  unfold Node.groupPart
  simp only [hid, ofAttributes_node h, groupStyle?_node h, memberWidgets_node]
  rfl

end NewGroup

/-! ## A root with the group -/

/-- An element with lines behind its content, or behind itself if it has none. -/
def behindContent (lines : Forest) : Forest → Forest
  | .paired tag children close _ => .paired tag (children.append lines) close .nil
  | x => x.append lines

section

variable {names : List String} {start : Nat} {x : Forest} {e : Element} (h : x.Spells names start e)
  (lines : Forest)

include h

theorem wellFormed_behindContent (hx : x.WellFormed) (hlines : lines.WellFormed) :
    (behindContent lines x).WellFormed := by
  cases h with
  | single gap hin => exact Forest.wellFormed_append.mpr ⟨hx, hlines⟩
  | paired children close hin =>
    obtain ⟨⟨htag, hclose, hsame, hchildren, -⟩, hplain, hinside, -⟩ := hx
    have hall := Forest.wellFormed_append.mpr ⟨⟨hchildren, hinside⟩, hlines⟩
    exact ⟨⟨htag, hclose, hsame, hall.nested, trivial⟩, hplain, hall.plain, trivial⟩

/-- Where the lines stand in the text. -/
theorem exists_behindContent : ∃ front back, x.chars = front ++ back ∧
    (behindContent lines x).chars = front ++ (lines.chars ++ back) ∧ (∃ rest, front = '<' :: rest) ∧
    start + size front = (e.inner?.map Span.stop).getD e.openEnd := by
  have hslash : ('/').utf8Size = 1 := rfl
  have hgt : ('>').utf8Size = 1 := rfl
  cases h with
  | @single tag gap name hin =>
    refine ⟨tag.text ++ ('/' :: gap ++ ['>']), [], by simp [Forest.chars],
      by simp [behindContent, Forest.append, Forest.chars], ⟨_, rfl⟩, ?_⟩
    simp only [Element.inner?, Option.map_none, Option.getD_none, size_append, size_cons, size_nil, hslash, hgt]
    omega
  | @paired tag children close name hin =>
    refine ⟨tag.text ++ '>' :: children.chars, close.text, by simp [Forest.chars],
      by simp [behindContent, Forest.chars, Forest.chars_append], ⟨_, rfl⟩, ?_⟩
    simp only [Element.inner?, Option.map_some, Option.getD_some, size_append, size_cons, hgt]
    omega

/-- The walk for groups reaches what stands in the lines. -/
theorem mem_reachedNodes_behindContent {n : Node} (hn : n ∈ lines.reachedNodes (searchedNames ["group"])) :
    n ∈ (behindContent lines x).reachedNodes (searchedNames ["group"]) := by
  cases h with
  | single gap hin => exact List.mem_append_right _ hn
  | @paired tag children close name hin =>
    have hc := admitted_containers (.inside tag (.here .nil) close .nil)
    refine List.mem_append_right _ (List.mem_append_left _ ?_)
    rw [if_pos hc.1, Forest.reachedNodes_append]
    exact List.mem_append_right _ hn

end

/-- **What a document gives when groups come to it**: they come last in its layout, and its widgets are as
before. -/
structure Gains (doc doc' : List Char) (more : Breakpoints Nat → List Group) : Prop where
  widgets : (Dashboard.parse doc').widgets = (Dashboard.parse doc).widgets
  layout : ∃ columns gapX gapY groups,
    (Dashboard.parse doc).canvas.layout = .grid columns gapX gapY groups ∧
      (Dashboard.parse doc').canvas.layout = .grid columns gapX gapY (groups ++ more columns)

/-- **A root with a new group** gives it behind its own, and the same widgets. -/
theorem gains_of_content {f f' : Forest} {root root' : Node} (h : f.IsBoard root) (h' : f'.IsBoard root')
    (hattrs : root'.attrs = root.attrs) {g : NewGroup} (hg : g.Fits)
    (hcontent : root'.content = root.content.append g.tree) :
    Gains f.chars f'.chars fun columns => [g.group columns] := by
  have hgroup : g.tree.nodes ["group"] = [g.node] := g.nodes_tree (by decide)
  have hsection : g.tree.nodes ["section"] = [] := g.nodes_tree_eq_nil (by decide) (by decide)
  have hscope : g.tree.nodes CanvasStyle.scopeNames = [g.node] := g.nodes_tree (by decide)
  have hparts : ((root'.content.nodes ["group"]).map (Node.groupPart (Placement.gridColumns root'.attrs))) =
      ((root.content.nodes ["group"]).map (Node.groupPart (Placement.gridColumns root.attrs))) ++
        [⟨some (g.group (Placement.gridColumns root.attrs)), []⟩] := by
    rw [hcontent, hattrs, Forest.nodes_append, hgroup, List.map_append, List.map_singleton,
      NewGroup.groupPart_node hg]
  have hgroups : root'.groups = root.groups ++ [g.group (Placement.gridColumns root.attrs)] := by
    unfold Node.groups
    rw [hparts, List.filterMap_append]
    rfl
  have hplaced : root'.placedWidgets = root.placedWidgets := by
    unfold Node.placedWidgets
    rw [hparts, hcontent, strays_append, g.strays_tree]
    simp
  have hrows : root'.content.rowParts = root.content.rowParts := by
    unfold Forest.rowParts
    rw [hcontent, Forest.nodes_append, hsection, List.append_nil]
  have hobjects : root'.canvasObjects = root.canvasObjects := by
    unfold Node.canvasObjects
    rw [hcontent, Forest.nodes_append, hscope, List.filter_append]
    have hname : [g.node].filter (·.name == "style") = [] := rfl
    rw [hname, List.append_nil]
  constructor
  · rw [h.widgets, h'.widgets, hrows, hplaced, dress_congr hattrs hobjects]
  · exact ⟨_, _, _, _, h.layout, by rw [h'.layout, hattrs, hgroups]⟩

/-! ## Adding the group -/

/-- Where a group with the id is reached, nothing is added. -/
theorem ensureGroup_of_mem {f : Forest} (hf : f.WellFormed) {n : Node}
    (hn : n ∈ f.reachedNodes (searchedNames ["group"])) {g : NewGroup} (hname : n.name = "group")
    (hid : n.carries g.id = true) : ensureGroup f.chars g = .ok (f.chars, false) := by
  have hshown := shown_reached_whole (searchedNames ["group"]) f
  obtain ⟨e, he, hne⟩ := exists_of_mem_left hshown hn
  have hanswers : e.answers ["group"] g.id = true := by
    rw [answers_shown hne, hid, hname]
    rfl
  have hmem : e ∈ (f.reached (searchedNames ["group"]) 0).filter (·.answers ["group"] g.id) :=
    List.mem_filter.mpr ⟨he, hanswers⟩
  unfold ensureGroup
  rw [elementsById_wellFormed searchable_of_mem_searchedGroup hf]
  cases hfound : (f.reached (searchedNames ["group"]) 0).filter (·.answers ["group"] g.id) with
  | nil =>
    rw [hfound] at hmem
    exact absurd hmem List.not_mem_nil
  | cons d ds => rfl

/-- **A group that no other has the id of is added.** -/
theorem exists_ensureGroup {f : Forest} {root : Node} (h : f.IsBoard root) {e : Element}
    (hroot : rootElement f.chars = .ok (some e)) {g : NewGroup} (hg : g.Fits)
    (hnone : elementsById f.chars ["group"] g.id = .ok []) :
    ∃ doc', ensureGroup f.chars g = .ok (doc', true) ∧
      (Gains f.chars doc' fun columns => if e.selfClosing then [] else [g.group columns]) ∧
      ensureGroup doc' g = .ok (doc', false) := by
  -- the document is changed in one place, inside the dashboard or behind it
  obtain ⟨c, x, rfl, hspells, hfirst⟩ := exists_root_place h.wellFormed hroot
  obtain ⟨front, back, hx, hy, ⟨s, hs⟩, hoffset⟩ := exists_behindContent hspells g.tree
  obtain ⟨hxwell, hfill⟩ := Context.wellFormed_fill h.wellFormed
  have hywell := wellFormed_behindContent hspells g.tree hxwell (NewGroup.wellFormed_tree hg)
  have hdoc : (c.fill x).chars = (c.before ++ front) ++ ([] ++ (back ++ c.behind)) := by
    rw [Context.chars_fill, hx]
    simp
  have hdoc' : (c.fill (behindContent g.tree x)).chars =
      (c.before ++ front) ++ (g.lines ++ (back ++ c.behind)) := by
    rw [Context.chars_fill, hy, g.chars_tree]
    simp
  have hplace : groupOffset (c.fill x).chars = size (c.before ++ front) := by
    unfold groupOffset
    rw [hroot, size_append, hoffset]
  have hinsert : insertAt (c.fill x).chars (groupOffset (c.fill x).chars) g.lines =
      .ok (c.fill (behindContent g.tree x)).chars := by
    have happly := Splice.apply_append (c.before ++ front) [] (back ++ c.behind) g.lines
    unfold insertAt
    rw [hplace, hdoc, hdoc']
    exact happly
  have hadded : ensureGroup (c.fill x).chars g = .ok ((c.fill (behindContent g.tree x)).chars, true) := by
    unfold ensureGroup
    rw [hnone, hinsert]
    rfl
  have huntagged : Untagged (c.fill (behindContent g.tree x)).chars := by
    have hold := h.untagged
    rw [hdoc, List.nil_append] at hold
    obtain ⟨hbefore, hbehind, -⟩ := untagged_append.mp hold
    rw [hdoc', ← g.chars_tree]
    exact (NewGroup.shut_tree hg).between hbefore hbehind
  have hbegins : ∃ t, (behindContent g.tree x).chars = '<' :: t := ⟨_, by rw [hy, hs]; rfl⟩
  have hone := h.first
  rw [hfirst.nodes_fill] at hone
  refine ⟨_, hadded, ?_, ?_⟩
  · cases hspells with
    | @single tag gap name hin =>
      -- the root is as before, and nothing behind it counts
      obtain rfl : (⟨name, tag.meant, .nil⟩ : Node) = root := by simpa [Forest.nodes, hin] using hone
      have h' := h.refill hfirst ⟨_, rfl⟩ hbegins (by simp [behindContent, Forest.append, Forest.nodes, hin]) rfl
        hywell huntagged
      exact ⟨by rw [h.widgets, h'.widgets], _, _, _, _, h.layout, by rw [h'.layout]; simp [Element.selfClosing]⟩
    | @paired tag children close name hin =>
      obtain rfl : (⟨name, tag.meant, children⟩ : Node) = root := by simpa [Forest.nodes, hin] using hone
      have h' := @Forest.IsBoard.refill c hfirst _ (behindContent g.tree (.paired tag children close .nil)) _
        ⟨name, tag.meant, children.append g.tree⟩ h ⟨_, rfl⟩ hbegins (by simp [behindContent, Forest.nodes, hin])
        rfl hywell huntagged
      exact gains_of_content h h' rfl hg rfl
  · refine ensureGroup_of_mem (hfill _ hywell) ?_ rfl (NewGroup.carries_node hg)
    exact mem_reachedNodes_fill (admitted_containers c)
      (mem_reachedNodes_behindContent hspells g.tree g.mem_reachedNodes_tree)

/-- **A group that is to be there is there afterwards.** In a document on a grid it is added if and only if no
group has its id; a second time, nothing is changed. It comes last in the layout, unless the dashboard closes
itself: then it stands behind the dashboard, and the document gives what it gave before. -/
theorem ensureGroup_ensures {f : Forest} {root : Node} (h : f.IsBoard root) {e : Element}
    (hroot : rootElement f.chars = .ok (some e)) {g : NewGroup} (hg : g.Fits) :
    ∃ doc' created, ensureGroup f.chars g = .ok (doc', created) ∧
      (created = true ↔ elementsById f.chars ["group"] g.id = .ok []) ∧
      (created = false → doc' = f.chars) ∧
      (created = true → Gains f.chars doc' fun columns =>
        if e.selfClosing then [] else [g.group columns]) ∧
      ensureGroup doc' g = .ok (doc', false) := by
  have hfound := elementsById_wellFormed searchable_of_mem_searchedGroup h.wellFormed g.id
  cases hgroups : (f.reached (searchedNames ["group"]) 0).filter (·.answers ["group"] g.id) with
  | nil =>
    rw [hgroups] at hfound
    obtain ⟨doc', hadded, hgains, hagain⟩ := exists_ensureGroup h hroot hg hfound
    exact ⟨doc', true, hadded, by simp [hfound], by simp, fun _ => hgains, hagain⟩
  | cons d ds =>
    rw [hgroups] at hfound
    have hsame : ensureGroup f.chars g = .ok (f.chars, false) := by
      unfold ensureGroup
      rw [hfound]
      rfl
    exact ⟨f.chars, false, hsame, by simp [hfound], fun _ => rfl, by simp, hsame⟩

/-! ## A group for an empty dashboard -/

/-- A group with nothing but an id and a title. -/
def plainGroup : NewGroup :=
  { id := "g", title := some "G" }

theorem fits_plainGroup : plainGroup.Fits where
  id := ⟨by decide, by decide, by decide⟩
  title := fun t ht => Option.mem_some.mp ht ▸ ⟨by decide, by decide, by decide⟩
  columns := by decide
  gapX := by decide
  gapY := by decide
  style := fun o ho => nomatch ho

/-- A dashboard that closes itself, on a grid. -/
def closedBoard : Forest :=
  .single (.rendered "dashboard" [⟨"layout-mode", "grid"⟩] []) [] .nil

theorem isBoard_closedBoard : closedBoard.IsBoard (boardRoot .nil) := by
  refine ⟨by decide, by decide, by decide, ?_, isGrid_boardRoot .nil⟩
  have hin : (WrittenTag.rendered "dashboard" [⟨"layout-mode", "grid"⟩] []).nameIn? ["dashboard"] =
      some "dashboard" := by decide
  unfold closedBoard
  simp only [Forest.nodes, hin, meant_rendered]
  rfl

/-- An empty dashboard gets the group, once. -/
theorem ensureGroup_ensures_empty :
    (board .nil).IsBoard (boardRoot .nil) ∧ plainGroup.Fits ∧
      ∃ doc', ensureGroup (board .nil).chars plainGroup = .ok (doc', true) ∧
        (Gains (board .nil).chars doc' fun columns => [plainGroup.group columns]) ∧
        ensureGroup doc' plainGroup = .ok (doc', false) := by
  have hboard := @isBoard_board .nil (by decide) (by decide)
  obtain ⟨doc', created, hadded, hiff, -, hgains, hagain⟩ :=
    ensureGroup_ensures hboard (rootElement_forest hboard.wellFormed) fits_plainGroup
  obtain rfl := hiff.mpr (elementsById_wellFormed searchable_of_mem_searchedGroup hboard.wellFormed _)
  exact ⟨hboard, fits_plainGroup, doc', hadded, hgains rfl, hagain⟩

/-- **A dashboard that closes itself does not show the group** that is written behind it. -/
theorem ensureGroup_behind_root :
    closedBoard.IsBoard (boardRoot .nil) ∧ closedBoard.chars = "<dashboard layout-mode=\"grid\"/>".toList ∧
      ∃ doc', ensureGroup closedBoard.chars plainGroup = .ok (doc', true) ∧
        ∀ columns gapX gapY groups, (Dashboard.parse doc').canvas.layout = .grid columns gapX gapY groups →
          groups = [] := by
  have hboard := isBoard_closedBoard
  have hnone : elementsById closedBoard.chars ["group"] plainGroup.id = .ok [] :=
    elementsById_wellFormed searchable_of_mem_searchedGroup hboard.wellFormed _
  obtain ⟨doc', hadded, hgains, -⟩ :=
    exists_ensureGroup hboard (rootElement_forest hboard.wellFormed) fits_plainGroup hnone
  obtain ⟨columns, gapX, gapY, groups, hlayout, hlayout'⟩ := hgains.layout
  refine ⟨hboard, by decide, doc', hadded, fun _ _ _ shown hshown => ?_⟩
  have hempty : groups = [] := by
    rw [hboard.layout] at hlayout
    exact (Layout.grid.inj hlayout).2.2.2.symm
  rw [hlayout'] at hshown
  rw [← (Layout.grid.inj hshown).2.2.2, hempty]
  rfl

end DashboardMarkup.Edit
