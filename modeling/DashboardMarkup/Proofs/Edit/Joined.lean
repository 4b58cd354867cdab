import DashboardMarkup.Proofs.Edit.Board
import DashboardMarkup.Proofs.Edit.Island
import DashboardMarkup.Proofs.Edit.Reach

/-!
# Lines at the end of a group

A new widget is written behind what is in its group, before the blanks that indent the close tag. A group
that closes itself is opened for it.

* `exists_margin`: the blanks at the end of a tree belong to none of its nodes.
* `Joined`: a group with a widget behind what was in it.
* `exists_joined`: so the group is after the edit.
-/

namespace DashboardMarkup.Edit

open Markup Template Text

/-! ## Blanks at the end of a tree -/

theorem isLineBlank_gt : isLineBlank '>' = false := by
  decide

/-- **The blanks at the end of a tree belong to none of its nodes.** -/
theorem exists_margin {f : Forest} (hf : f.WellFormed) :
    ∃ k : Forest, k.WellFormed ∧ k.chars = dropEndWhile isLineBlank f.chars ∧
      ∀ names, k.nodes names = f.nodes names := by
  obtain ⟨hnested, hplain⟩ := hf
  -- the induction is on the tree; a part that ends with a tag has no blanks at its end
  induction f with
  | nil => exact ⟨.nil, wellFormed_nil, rfl, fun _ => rfl⟩
  | text t rest ih =>
    obtain ⟨k, hk, hchars, hnodes⟩ := ih hnested.2 hplain
    have hpart : '<' ∉ dropEndWhile isLineBlank t := fun hmem => by
      obtain ⟨dropped, hdropped, -⟩ := append_dropEndWhile isLineBlank t
      exact hnested.1 (hdropped ▸ List.mem_append_left _ hmem)
    by_cases hempty : dropEndWhile isLineBlank rest.chars = []
    · refine ⟨.text (dropEndWhile isLineBlank t) k, ⟨⟨hpart, hk.nested⟩, hk.plain⟩, ?_, hnodes⟩
      rw [Forest.chars, Forest.chars, dropEndWhile_append, if_pos hempty, hchars, hempty, List.append_nil]
    · refine ⟨.text t k, ⟨⟨hnested.1, hk.nested⟩, hk.plain⟩, ?_, hnodes⟩
      rw [Forest.chars, Forest.chars, dropEndWhile_append, if_neg hempty, hchars]
  | comment t rest ih =>
    obtain ⟨k, hk, hchars, hnodes⟩ := ih hnested.2 hplain
    refine ⟨.comment t k, ⟨⟨hnested.1, hk.nested⟩, hk.plain⟩, ?_, hnodes⟩
    have hend := dropEndWhile_append_last isLineBlank_gt ("<!--".toList ++ (t ++ ['-', '-'])) rest.chars
    rw [← hchars] at hend
    simpa [Forest.chars] using hend.symm
  | single tag gap rest ih =>
    obtain ⟨k, hk, hchars, hnodes⟩ := ih hnested.2.2 hplain.2
    refine ⟨.single tag gap k, ⟨⟨hnested.1, hnested.2.1, hk.nested⟩, hplain.1, hk.plain⟩, ?_, fun names => ?_⟩
    · have hend := dropEndWhile_append_last isLineBlank_gt (tag.text ++ '/' :: gap) rest.chars
      rw [← hchars] at hend
      simpa [Forest.chars] using hend.symm
    · rw [Forest.nodes, Forest.nodes, hnodes]
  | paired tag children close rest _ ih =>
    obtain ⟨htag, hclose, hsame, hchildren, hrest⟩ := hnested
    obtain ⟨k, hk, hchars, hnodes⟩ := ih hrest hplain.2.2
    refine ⟨.paired tag children close k, ⟨⟨htag, hclose, hsame, hchildren, hk.nested⟩, hplain.1, hplain.2.1,
      hk.plain⟩, ?_, fun names => ?_⟩
    · have hend := dropEndWhile_append_last isLineBlank_gt
        (tag.text ++ '>' :: (children.chars ++ ('<' :: '/' :: (close.name ++ close.gap)))) rest.chars
      rw [← hchars] at hend
      simpa [Forest.chars, WrittenClose.text] using hend.symm
    · rw [Forest.nodes, Forest.nodes, hnodes]

/-! ## A group with a new widget -/

/-- **A widget as it can be written into a document**: one element, of which the parser makes the widget. -/
structure IsCell (cell : Forest) (w : Widget) : Prop where
  wellFormed : cell.WellFormed
  shut : Shut cell.chars
  chars : ∃ middle, cell.chars = '<' :: (middle ++ ['>'])
  node : ∃ n, cell.nodes ("style" :: widgetNames) = [n] ∧ n.name ≠ "style" ∧ n.widget? = some w
  rows : cell.nodes ["section"] = []

/-- A widget on lines of its own. -/
def cellLines (cell : Forest) : List Char :=
  "\n    ".toList ++ (cell.chars ++ ['\n'])

/-- **A group with a widget behind what was in it.** -/
structure Joined (cell x y : Forest) (e : Element) : Prop where
  wellFormed : y.WellFormed
  spells : ∃ e', y.Spells ["group"] e.start e' ∧ e'.name = e.name ∧ e'.attrs = e.attrs
  nodes : ∀ names, (inner y).nodes names = (inner x).nodes names ++ cell.nodes names

theorem trim_cellLines {cell : Forest} {w : Widget} (h : IsCell cell w) :
    Text.trim (cellLines cell) = cell.chars ∧ Text.trim cell.chars = cell.chars := by
  obtain ⟨middle, hchars⟩ := h.chars
  have hself : Text.trim cell.chars = cell.chars := by
    rw [hchars]
    exact trim_eq_self (by decide) (by decide) middle
  refine ⟨?_, hself⟩
  have hstart : trimStart (cellLines cell) = trimStart cell.chars ++ ['\n'] := by
    unfold cellLines
    rw [hchars]
    rfl
  unfold Text.trim at hself ⊢
  rw [hstart, trimEnd_append (by decide), hself]

section

variable {before behind : List Char} {id : String} {e : Element} {cell : Forest} {w : Widget}

/-- A group that closes itself is opened. -/
theorem linesPlan_single {tag : WrittenTag} {gap : List Char} {doc : List Char}
    (h : (Forest.single tag gap .nil).Spells ["group"] (size before) e)
    (hone : elementsById doc ["group"] id = .ok [e]) (hcell : IsCell cell w) :
    linesPlan doc id (cellLines cell) = writeBlock doc e none .last cell.chars := by
  obtain ⟨hlines, hself⟩ := trim_cellLines hcell
  have hfirst : elementById doc ["group"] id = .ok (some e) := by
    unfold elementById
    rw [hone]
    rfl
  unfold linesPlan writeBlock insertChild
  rw [hfirst, hlines, hself]
  cases h with
  | single gap hin => rfl

/-- Before the blanks at the end of a group, the widget is written on lines of its own. -/
theorem linesPlan_paired {tag : WrittenTag} {children k : Forest} {close : WrittenClose} {blanks : List Char}
    (h : (Forest.paired tag children close .nil).Spells ["group"] (size before) e)
    (hone : elementsById (before ++ ((Forest.paired tag children close .nil).chars ++ behind)) ["group"] id =
      .ok [e])
    (hk : k.chars = dropEndWhile isLineBlank children.chars) (hblanks : children.chars = k.chars ++ blanks) :
    Splice.carryOut (before ++ ((Forest.paired tag children close .nil).chars ++ behind))
        (linesPlan (before ++ ((Forest.paired tag children close .nil).chars ++ behind)) id (cellLines cell)) =
      .ok (before ++ ((Forest.paired tag (k.append (.text "\n    ".toList (cell.append
        (.text ('\n' :: blanks) .nil)))) close .nil).chars ++ behind)) := by
  have hgt : ('>').utf8Size = 1 := rfl
  have hfirst : elementById (before ++ ((Forest.paired tag children close .nil).chars ++ behind)) ["group"] id =
      .ok (some e) := by
    unfold elementById
    rw [hone]
    rfl
  have hdoc : before ++ ((Forest.paired tag children close .nil).chars ++ behind) =
      (before ++ tag.text ++ ['>'] ++ k.chars) ++ (blanks ++ (close.text ++ behind)) := by
    simp [Forest.chars, hblanks]
  have hkept : dropEndWhile isLineBlank (before ++ tag.text ++ ['>'] ++ (k.chars ++ blanks)) =
      before ++ tag.text ++ ['>'] ++ k.chars := by
    rw [dropEndWhile_append_last isLineBlank_gt, ← hblanks, ← hk]
  have hstop : size (before ++ tag.text ++ ['>'] ++ (k.chars ++ blanks)) =
      size before + size tag.text + 1 + size children.chars := by
    rw [hblanks]
    simp only [size_append, size_cons, size_nil, hgt]
  have hplan : linesPlan (before ++ ((Forest.paired tag children close .nil).chars ++ behind)) id
      (cellLines cell) = .ok [⟨⟨size (before ++ tag.text ++ ['>'] ++ k.chars),
        size (before ++ tag.text ++ ['>'] ++ k.chars) + size blanks⟩, cellLines cell ++ blanks⟩] := by
    have hcut := Span.cut?_append [] (before ++ tag.text ++ ['>'] ++ (k.chars ++ blanks)) (close.text ++ behind)
    simp only [List.nil_append, size_nil, Nat.zero_add, hstop] at hcut
    have htext : (⟨0, size before + size tag.text + 1 + size children.chars⟩ : Span).text
        (before ++ ((Forest.paired tag children close .nil).chars ++ behind)) =
          .ok (before ++ tag.text ++ ['>'] ++ (k.chars ++ blanks)) := by
      have hsplit : before ++ ((Forest.paired tag children close .nil).chars ++ behind) =
          (before ++ tag.text ++ ['>'] ++ (k.chars ++ blanks)) ++ (close.text ++ behind) := by
        simp [Forest.chars, hblanks]
      unfold Span.text
      rw [hsplit, hcut]
    have hdrop : (before ++ tag.text ++ ['>'] ++ (k.chars ++ blanks)).drop
        (before ++ tag.text ++ ['>'] ++ k.chars).length = blanks := by
      rw [← List.append_assoc]
      exact List.drop_left
    have hsize : size before + size tag.text + 1 + size children.chars =
        size (before ++ tag.text ++ ['>'] ++ k.chars) + size blanks := by
      rw [← hstop, ← List.append_assoc, size_append]
    rw [hsize] at htext
    unfold linesPlan
    rw [hfirst]
    cases h with
    | paired children close hin =>
      simp only [Element.inner?, bind, Except.bind, htext, hkept, hdrop, hsize, Nat.add_sub_cancel]
      rfl
  rw [hplan, hdoc, Splice.carryOut_single]
  simp [Forest.chars, Forest.chars_append, cellLines]

/-- **A group with new lines has a new widget.** -/
theorem exists_joined {x : Forest} (hx : x.WellFormed) (hspells : x.Spells ["group"] (size before) e)
    (huntagged : Untagged (before ++ (x.chars ++ behind)))
    (hone : elementsById (before ++ (x.chars ++ behind)) ["group"] id = .ok [e])
    (hself : e.selfClosing = true → ∀ a ∈ e.attrs, '<' ∉ a.value.toList) (hcell : IsCell cell w) :
    ∃ y, Joined cell x y e ∧ Untagged (before ++ (y.chars ++ behind)) ∧
      Splice.carryOut (before ++ (x.chars ++ behind))
        (linesPlan (before ++ (x.chars ++ behind)) id (cellLines cell)) = .ok (before ++ (y.chars ++ behind)) := by
  obtain ⟨-, htrim⟩ := trim_cellLines hcell
  have hstart : e.start = size before := congrArg Span.start hspells.span
  cases hspells with
  | @single tag gap name hin =>
    obtain ⟨hline, hending⟩ := blank_line before
    have hlower := (searchable_of_nameIn? (show ∀ s ∈ ["group"], Searchable s by decide) hin).2
    have hgroup : TagName name := by
      rw [List.mem_singleton.mp (List.mem_of_find?_eq_some hin)]
      decide
    have hrewritten : Rewritten [] "" cell .nil (.single tag gap .nil) _ :=
      .opened gap hgroup hlower (hself rfl) hline hending
    refine ⟨_, ⟨wellFormed_rewritten hx hcell.wellFormed hrewritten, ?_, fun names => ?_⟩,
      hrewritten.untagged huntagged hcell.shut, ?_⟩
    · exact hrewritten.spells (.single gap hin)
    · simp [inner, Forest.nodes, Forest.nodes_append]
    · rw [linesPlan_single (.single gap hin) hone hcell]
      exact writeBlock_single (.single gap hin) .last htrim
  | @paired tag children close name hin =>
    obtain ⟨⟨htag, hclose, hsame, hchildren, -⟩, hplain, hinside, -⟩ := hx
    obtain ⟨k, hk, hchars, hnodes⟩ := exists_margin ⟨hchildren, hinside⟩
    obtain ⟨blanks, hblanks, hall⟩ := append_dropEndWhile isLineBlank children.chars
    rw [← hchars] at hblanks
    have hending : Blank ('\n' :: blanks) := fun c hc => by
      rcases List.mem_cons.mp hc with rfl | hc
      · decide
      · exact isBlank_of_isLineBlank (hall c hc)
    have hindent : Blank "\n    ".toList := show ∀ c ∈ "\n    ".toList, isBlank c = true by decide
    have hend : (Forest.text ('\n' :: blanks) .nil).WellFormed := ⟨⟨hending.lt_not_mem, trivial⟩, trivial⟩
    have hcontent : (k.append (.text "\n    ".toList (cell.append (.text ('\n' :: blanks) .nil)))).WellFormed := by
      have hrest := Forest.wellFormed_append.mpr ⟨hcell.wellFormed, hend⟩
      have hlines : (Forest.text "\n    ".toList (cell.append (.text ('\n' :: blanks) .nil))).WellFormed :=
        ⟨⟨hindent.lt_not_mem, hrest.nested⟩, hrest.plain⟩
      exact Forest.wellFormed_append.mpr ⟨hk, hlines⟩
    have hy : (Forest.paired tag (k.append (.text "\n    ".toList (cell.append (.text ('\n' :: blanks) .nil)))) close
        .nil).WellFormed := ⟨⟨htag, hclose, hsame, hcontent.nested, trivial⟩, hplain, hcontent.plain, trivial⟩
    refine ⟨_, ⟨hy, ?_, fun names => ?_⟩, ?_, linesPlan_paired (.paired children close hin) hone hchars hblanks⟩
    · exact ⟨_, .paired _ close hin, by rw [hstart], rfl⟩
    · simp [inner, Forest.nodes, Forest.nodes_append, hnodes]
    · have hfront : before ++ ((Forest.paired tag children close .nil).chars ++ behind) =
          (before ++ (tag.text ++ '>' :: k.chars)) ++ (blanks ++ (close.text ++ behind)) := by
        simp [Forest.chars, hblanks]
      rw [hfront] at huntagged
      obtain ⟨hleft, hright, -⟩ := untagged_append.mp huntagged
      have hlines : Shut (cellLines cell) := (show Shut "\n    ".toList by decide).append (hcell.shut.append (by decide))
      have hdoc := hlines.between hleft hright
      simpa [Forest.chars, Forest.chars_append, cellLines] using hdoc

end

/-! ## A dashboard with a new widget -/

/-- **What a document gives when a widget comes to a group**: the group has it as its last member, and all
other groups and widgets are as before. -/
structure Joins (doc doc' : List Char) (id : String) (w : Widget) : Prop where
  layout : ∃ columns gapX gapY left group right,
    (Dashboard.parse doc).canvas.layout = .grid columns gapX gapY (left ++ group :: right) ∧ group.id = id ∧
      (Dashboard.parse doc').canvas.layout =
        .grid columns gapX gapY (left ++ { group with children := group.children ++ [w.id] } :: right)
  widgets : ∃ left right, (Dashboard.parse doc).widgets = left ++ right ∧
    (Dashboard.parse doc').widgets = left ++ w :: right

/-- A group with a widget behind its members. -/
theorem groupPart_of_member {n n' m : Node} {w : Widget} {id : String} (hattrs : n'.attrs = n.attrs)
    (hnodes : n'.content.nodes ("style" :: widgetNames) = n.content.nodes ("style" :: widgetNames) ++ [m])
    (hm : m.name ≠ "style") (hw : m.widget? = some w) (hid : n.attrs.text? "id" = some id)
    (columns : Breakpoints Nat) :
    ∃ g : Group, g.id = id ∧ n.groupPart columns = ⟨some g, n.memberWidgets⟩ ∧
      n'.groupPart columns =
        ⟨some { g with children := g.children ++ [w.id] }, n.memberWidgets ++ [w]⟩ := by
  have hstyle : n'.groupStyle? = n.groupStyle? := by
    unfold Node.groupStyle? Node.styles
    rw [hnodes, List.filter_append, List.filter_cons_of_neg (by simpa using hm), List.filter_nil, List.append_nil]
  have hmembers : n'.memberWidgets = n.memberWidgets ++ [w] := by
    unfold Node.memberWidgets Forest.loose
    rw [hnodes, List.filter_append, List.filter_cons_of_pos (by simpa using hm), List.filterMap_append]
    simp [hw]
  unfold Node.groupPart
  rw [hattrs, hid, hstyle, hmembers, List.map_append, List.map_singleton]
  exact ⟨_, rfl, rfl, rfl⟩

theorem text_of_answers {e : Element} {names : List String} {id : String} (h : e.answers names id = true)
    (hid : id ≠ "") : e.attrs.text? "id" = some id := by
  obtain ⟨-, hsame⟩ := Bool.and_eq_true_iff.mp h
  unfold Attributes.text? Attributes.first?
  simp [beq_iff_eq.mp hsame, hid]

theorem name_of_spells_group {x : Forest} {start : Nat} {e : Element} (h : x.Spells ["group"] start e) :
    e.name = "group" := by
  cases h with
  | single gap hin => exact List.mem_singleton.mp (List.mem_of_find?_eq_some hin)
  | paired children close hin => exact List.mem_singleton.mp (List.mem_of_find?_eq_some hin)

/-- No widget stands beside a group. -/
theorem strays_of_spells {x : Forest} {start : Nat} {e : Element} (h : x.Spells ["group"] start e)
    (names : List String) : x.strays "group" names = [] := by
  cases h with
  | single gap hin => simp [Forest.strays, hin]
  | paired children close hin => simp [Forest.strays, hin]

section

variable {f f' : Forest} {root root' : Node} {front x y back : Forest} {e : Element} {id : String}

/-- **A root with a new widget in one of its groups.** -/
theorem joins_of_content (h : f.IsBoard root) (h' : f'.IsBoard root') (hattrs : root'.attrs = root.attrs)
    {start : Nat} (hx : x.Spells ["group"] start e) (hanswers : e.answers ["group"] id = true) (hid : id ≠ "")
    (hcontent : root.content = front.append (x.append back))
    (hcontent' : root'.content = front.append (y.append back)) {cell : Forest} {w : Widget} (hcell : IsCell cell w)
    (hjoined : Joined cell x y e) : Joins f.chars f'.chars id (root.dress w) := by
  obtain ⟨e', hy, hname, hattrs'⟩ := hjoined.spells
  have hgroup := name_of_spells_group hx
  have hgroup' := name_of_spells_group hy
  obtain ⟨m, hm, hmname, hwidget⟩ := hcell.node
  -- the group is found where it was, by all searches that look for groups
  have hfound : ∀ {names : List String}, sameIn? names "group" = some "group" →
      x.nodes names = [⟨"group", e.attrs, inner x⟩] ∧ y.nodes names = [⟨"group", e.attrs, inner y⟩] := by
    intro names hin
    constructor
    · rw [nodes_of_sameIn hx (by rw [hgroup]; exact hin), hgroup]
    · rw [nodes_of_sameIn hy (by rw [hgroup']; exact hin), hgroup', hattrs']
  obtain ⟨g, hgid, hpart, hpart'⟩ :=
    @groupPart_of_member ⟨"group", e.attrs, inner x⟩ ⟨"group", e.attrs, inner y⟩ m w id rfl
      (by rw [hjoined.nodes, hm]) hmname hwidget (text_of_answers hanswers hid) (Placement.gridColumns root.attrs)
  obtain ⟨hxgroup, hygroup⟩ := hfound (show sameIn? ["group"] "group" = some "group" by decide)
  have hobjects : root'.canvasObjects = root.canvasObjects := by
    obtain ⟨hxscope, hyscope⟩ := hfound (show sameIn? CanvasStyle.scopeNames "group" = some "group" by decide)
    unfold Node.canvasObjects
    rw [hcontent, hcontent', Forest.nodes_append, Forest.nodes_append, Forest.nodes_append, Forest.nodes_append,
      hxscope, hyscope]
    simp
  have hrows : root'.content.rowParts = root.content.rowParts := by
    have hsection : y.nodes ["section"] = x.nodes ["section"] := by
      have hin : sameIn? ["section"] "group" = none := by decide
      rw [nodes_of_not_sameIn hx (by rw [hgroup]; exact hin), nodes_of_not_sameIn hy (by rw [hgroup']; exact hin),
        hjoined.nodes, hcell.rows, List.append_nil]
    unfold Forest.rowParts
    rw [hcontent, hcontent', Forest.nodes_append, Forest.nodes_append, Forest.nodes_append, Forest.nodes_append,
      hsection]
  have hparts : (root.content.nodes ["group"]).map (Node.groupPart (Placement.gridColumns root.attrs)) =
      (front.nodes ["group"]).map (Node.groupPart (Placement.gridColumns root.attrs)) ++
        ⟨some g, (⟨"group", e.attrs, inner x⟩ : Node).memberWidgets⟩ ::
          (back.nodes ["group"]).map (Node.groupPart (Placement.gridColumns root.attrs)) := by
    rw [hcontent, Forest.nodes_append, Forest.nodes_append, hxgroup, List.map_append, List.map_append,
      List.map_singleton, hpart]
    rfl
  have hparts' : (root'.content.nodes ["group"]).map (Node.groupPart (Placement.gridColumns root.attrs)) =
      (front.nodes ["group"]).map (Node.groupPart (Placement.gridColumns root.attrs)) ++
        ⟨some { g with children := g.children ++ [w.id] },
          (⟨"group", e.attrs, inner x⟩ : Node).memberWidgets ++ [w]⟩ ::
          (back.nodes ["group"]).map (Node.groupPart (Placement.gridColumns root.attrs)) := by
    rw [hcontent', Forest.nodes_append, Forest.nodes_append, hygroup, List.map_append, List.map_append,
      List.map_singleton, hpart']
    rfl
  have hstrays : root'.content.strays "group" widgetNames = root.content.strays "group" widgetNames := by
    rw [hcontent, hcontent', strays_append, strays_append, strays_append, strays_append, strays_of_spells hx,
      strays_of_spells hy]
  generalize (front.nodes ["group"]).map (Node.groupPart (Placement.gridColumns root.attrs)) = left at hparts hparts'
  generalize (back.nodes ["group"]).map (Node.groupPart (Placement.gridColumns root.attrs)) = right at hparts hparts'
  have hid' : (root.dress w).id = w.id := (dress_keeps root w).id
  constructor
  · refine ⟨Placement.gridColumns root.attrs, root.attrs.gapX?, root.attrs.gapY?,
      left.filterMap GroupPart.group, g, right.filterMap GroupPart.group, ?_, hgid, ?_⟩
    · rw [h.layout]
      unfold Node.groups
      rw [hparts, List.filterMap_append]
      rfl
    · rw [h'.layout]
      unfold Node.groups
      rw [hattrs, hparts', List.filterMap_append, hid']
      rfl
  · refine ⟨(root.content.rowParts.flatMap RowPart.widgets ++ (left.flatMap GroupPart.widgets ++
        (⟨"group", e.attrs, inner x⟩ : Node).memberWidgets)).map root.dress,
      (right.flatMap GroupPart.widgets ++
        (root.content.strays "group" widgetNames).filterMap Node.widget?).map root.dress, ?_, ?_⟩
    · rw [h.widgets]
      unfold Node.placedWidgets
      rw [hparts]
      simp
    · rw [h'.widgets, dress_congr hattrs hobjects, hrows]
      unfold Node.placedWidgets
      rw [hattrs, hparts', hstrays]
      simp

/-- A group is reported as the same wherever it stands. -/
theorem exists_spells (hx : x.Spells ["group"] e.start e) (start : Nat) :
    ∃ e', x.Spells ["group"] start e' ∧ e' ∈ x.reached (searchedNames ["group"]) start ∧ e'.name = e.name ∧
      e'.attrs = e.attrs := by
  have hname := name_of_spells_group hx
  have hreached : ∀ {tag : WrittenTag}, tag.nameIn? ["group"] = some e.name →
      tag.nameIn? (searchedNames ["group"]) = some e.name := fun {tag} hin => by
    have hlower := (searchable_of_nameIn? (show ∀ s ∈ ["group"], Searchable s by decide) hin).2
    rw [nameIn?_eq_sameIn? hlower, hname]
    decide
  generalize he : e.start = first at hx
  cases hx with
  | single gap hin =>
    exact ⟨_, .single gap hin, List.mem_append_left _ (by rw [hreached hin]; exact List.mem_cons_self), rfl, rfl⟩
  | paired children close hin =>
    exact ⟨_, .paired children close hin, List.mem_append_left _ (by rw [hreached hin]; exact List.mem_cons_self),
      rfl, rfl⟩

/-- **Lines that are added to a group** in a document on a grid, if it is the only one with its id and stands at
the top of the dashboard. -/
theorem exists_insertLines (h : f.IsBoard root) (hid : id ≠ "")
    (hone : elementsById f.chars ["group"] id = .ok [e]) (hx : x.Spells ["group"] e.start e)
    (hcontent : root.content = front.append (x.append back))
    (hself : e.selfClosing = true → ∀ a ∈ e.attrs, '<' ∉ a.value.toList) {cell : Forest} {w : Widget}
    (hcell : IsCell cell w) :
    ∃ doc', Splice.carryOut f.chars (linesPlan f.chars id (cellLines cell)) = .ok doc' ∧
      Joins f.chars doc' id (root.dress w) := by
  have hne : root.content ≠ .nil := by
    obtain ⟨rest, hrest⟩ := exists_chars hx
    intro hnil
    have hchars := congrArg Forest.chars (hcontent.symm.trans hnil)
    simp [Forest.chars_append, hrest, Forest.chars] at hchars
  obtain ⟨c, tag, close, rfl, hfirst, hin, hmeant⟩ := h.exists_content hne
  rw [hcontent] at h hone ⊢
  have hdoc : ∀ z : Forest, (c.fill (.paired tag (front.append (z.append back)) close .nil)).chars =
      (c.before ++ (tag.text ++ '>' :: front.chars)) ++ (z.chars ++ (back.chars ++ (close.text ++ c.behind))) :=
    fun z => by simp [Context.chars_fill, Forest.chars, Forest.chars_append]
  -- the only group with the id is the one that stands there
  obtain ⟨e', hspells, hreached, hname, hattrs⟩ :=
    exists_spells hx (size (c.before ++ (tag.text ++ '>' :: front.chars)))
  have hfound := elementsById_wellFormed searchable_of_mem_searchedGroup h.wellFormed id
  have hone' := Except.ok.inj (hone.symm.trans hfound)
  have hmem : e ∈ ((c.fill (.paired tag (front.append (x.append back)) close .nil)).reached
      (searchedNames ["group"]) 0).filter (·.answers ["group"] id) := hone' ▸ List.mem_singleton.mpr rfl
  have hanswers : e.answers ["group"] id = true := (List.mem_filter.mp hmem).2
  have hsame : e' ∈ [e] := by
    rw [hone']
    refine List.mem_filter.mpr ⟨mem_reached_content hreached, ?_⟩
    rw [answers_of_eq hname hattrs]
    exact hanswers
  obtain rfl := List.mem_singleton.mp hsame
  -- the tree is changed in one place
  obtain ⟨hpaired, hfill⟩ := Context.wellFormed_fill h.wellFormed
  obtain ⟨⟨htag, hclose, hlower, hchildren, -⟩, hplain, hinside, -⟩ := hpaired
  obtain ⟨hfront, hrest⟩ := Forest.wellFormed_append.mp ⟨hchildren, hinside⟩
  obtain ⟨hxwell, hback⟩ := Forest.wellFormed_append.mp hrest
  have huntagged := h.untagged
  rw [hdoc] at huntagged hone ⊢
  obtain ⟨y, hjoined, hyuntagged, hcarry⟩ := exists_joined hxwell hspells huntagged hone hself hcell
  simp only [← hdoc] at hyuntagged hcarry ⊢
  have hcontent' := Forest.wellFormed_append.mpr ⟨hfront, Forest.wellFormed_append.mpr ⟨hjoined.wellFormed, hback⟩⟩
  have hroot : (Forest.paired tag (front.append (y.append back)) close .nil).WellFormed :=
    ⟨⟨htag, hclose, hlower, hcontent'.nested, trivial⟩, hplain, hcontent'.plain, trivial⟩
  have h' := @Forest.IsBoard.refill c hfirst _ (.paired tag (front.append (y.append back)) close .nil) root
    ⟨root.name, root.attrs, front.append (y.append back)⟩ h ⟨_, rfl⟩ ⟨_, rfl⟩
    (by simp [Forest.nodes, hin, hmeant]) rfl hroot hyuntagged
  exact ⟨_, hcarry, joins_of_content h h' rfl hspells hanswers hid hcontent rfl hcell hjoined⟩

end

end DashboardMarkup.Edit
