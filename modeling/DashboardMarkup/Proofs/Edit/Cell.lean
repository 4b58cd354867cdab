import DashboardMarkup.Proofs.Edit.Joined
import DashboardMarkup.Proofs.Edit.Lone
import DashboardMarkup.Proofs.Edit.NewQuery

/-!
# Lines of widgets

A widget is written as one element with a data source and styling tokens in it. The parser makes of it what its
attributes and these two say.

* `cell`: the lines of a widget as a tree.
* `widget?_cell`: the widget that they give.
* `isCell_cell`: they can be written into a document.
-/

namespace DashboardMarkup.Edit

open Markup Template Text

/-! ## The lines of a widget -/

/-- What is in a widget: its data source and its styling tokens. -/
def cellContent (query : Attributes) (tokens : String) : Forest :=
  .text "\n      ".toList ((loneTag "datasource" query).append (.text "\n      ".toList
    ((loneTag "styling" [⟨"tw", tokens⟩]).append (.text "\n    ".toList .nil))))

/-- The lines of a widget as a tree, without the breaks around them. -/
def cell (name : String) (attrs query : Attributes) (tokens : String) : Forest :=
  element name attrs (cellContent query tokens)

/-- The node of a widget. -/
def cellNode (name : String) (attrs query : Attributes) (tokens : String) : Node :=
  ⟨name, attrs, cellContent query tokens⟩

/-- A widget with some styling tokens applied, unless these are blank. -/
def styled (tokens : String) (w : Widget) : Widget :=
  ((Attributes.first? [⟨"tw", tokens⟩] ["tw", "class"]).map w.applyTokens).getD w

/-- The widget that a tag makes of a grid, with a data source and styling tokens. -/
def cellWidget (id : String) (kind : WidgetKind) (attrs query : Attributes) (tokens : String) : Widget :=
  styled tokens
    { Widget.ofTag id kind attrs with
      gridStart := (Widget.gridStartOf attrs none).nonempty?
      width := (Widget.widthOf attrs).nonempty?
      dataSource := some (.ofAttributes query) }

section

variable {name : String} {attrs query : Attributes} {tokens : String}

theorem widgetLines_eq : widgetLines name attrs query tokens = cellLines (cell name attrs query tokens) := by
  unfold widgetLines cellLines cell element cellContent
  rw [renderOpen_paired, ← chars_loneTag, ← chars_loneTag]
  simp [Forest.chars, Forest.chars_append, renderClose, WrittenClose.text]

theorem blocks_cellContent : (cellContent query tokens).nodes blockNames =
    [⟨"datasource", query, .nil⟩, ⟨"styling", [⟨"tw", tokens⟩], .nil⟩] := by
  unfold cellContent
  simp only [Forest.nodes, Forest.nodes_append]
  rw [nodes_loneTag _ (by decide), nodes_loneTag _ (by decide)]
  rfl

theorem nodes_cellContent_eq_nil {names : List String} (hsource : sameIn? names "datasource" = none)
    (hstyling : sameIn? names "styling" = none) : (cellContent query tokens).nodes names = [] := by
  unfold cellContent
  simp only [Forest.nodes, Forest.nodes_append]
  rw [nodes_loneTag_of_none _ hsource, nodes_loneTag_of_none _ hstyling]
  rfl

theorem wellFormed_cellContent (hquery : ∀ a ∈ query, Settable a) (htokens : Settable ⟨"tw", tokens⟩) :
    (cellContent query tokens).WellFormed := by
  have hsource := wellFormed_loneTag (show TagName "datasource" by decide) (fun a ha => (hquery a ha).name)
    fun a ha => (hquery a ha).plain
  have hstyling := @wellFormed_loneTag "styling" (by decide) [⟨"tw", tokens⟩]
    (fun a ha => List.mem_singleton.mp ha ▸ htokens.name) fun a ha => List.mem_singleton.mp ha ▸ htokens.plain
  have hbreak : (Forest.text "\n    ".toList .nil).WellFormed := ⟨⟨by decide, trivial⟩, trivial⟩
  have hrest := Forest.wellFormed_append.mpr ⟨hstyling, hbreak⟩
  have hsecond : (Forest.text "\n      ".toList ((loneTag "styling" [⟨"tw", tokens⟩]).append
      (.text "\n    ".toList .nil))).WellFormed := ⟨⟨by decide, hrest.nested⟩, hrest.plain⟩
  have hall := Forest.wellFormed_append.mpr ⟨hsource, hsecond⟩
  exact ⟨⟨by decide, hall.nested⟩, hall.plain⟩

/-- **The widget that the lines give.** -/
theorem widget?_cell {id : String} {kind : WidgetKind} (hwell : (cellContent query tokens).WellFormed)
    (hid : attrs.text? "id" = some id)
    (hkind : (match attrs.text? "type" with
      | some given => WidgetKind.ofText? given
      | none => kindOfTag name) = some kind) :
    (cellNode name attrs query tokens).widget? = some (cellWidget id kind attrs query tokens) := by
  have hshown := shown_alone (cellNode name attrs query tokens)
  have hidentify : (Widget.identify (cellNode name attrs query tokens).alone).Gives (some (id, kind)) := by
    unfold Widget.identify
    simp only [show (cellNode name attrs query tokens).alone.attrs = attrs from rfl,
      show (cellNode name attrs query tokens).alone.name = name from rfl, hid]
    cases htype : attrs.text? "type" with
    | some given =>
      rw [htype] at hkind
      simp only [hkind]
      exact Reading.gives_pure _
    | none =>
      rw [htype] at hkind
      simp only [hkind]
      exact Reading.gives_pure _
  obtain ⟨found, hfind, hblocks⟩ := hshown.find hwell (show ∀ s ∈ blockNames, Searchable s by decide)
  rw [show (cellNode name attrs query tokens).content.nodes blockNames = _ from blocks_cellContent] at hblocks
  obtain ⟨source, rest, hsource, hrest, rfl⟩ := List.forall₂_cons_left_iff.mp hblocks
  obtain ⟨styling, rest, hstyling, hnil, rfl⟩ := List.forall₂_cons_left_iff.mp hrest
  obtain rfl := List.forall₂_nil_left_iff.mp hnil
  have hread : ∀ w : Widget, (w.readBlocks (cellNode name attrs query tokens).content.chars
      (cellNode name attrs query tokens).alone).Gives
        (styled tokens { w with dataSource := some (.ofAttributes query) }) := fun w => by
    have hsourced : (Widget.readBlock (cellNode name attrs query tokens).content.chars w source).Gives
        { w with dataSource := some (.ofAttributes query) } := by
      unfold Widget.readBlock
      rw [hsource.name, hsource.attrs]
      exact Reading.gives_pure _
    have hstyled : ∀ w : Widget, (Widget.readBlock (cellNode name attrs query tokens).content.chars w styling).Gives
        (styled tokens w) := fun w => by
      unfold Widget.readBlock
      rw [hstyling.name, hstyling.attrs]
      exact Reading.gives_pure _
    refine (Reading.gives_of_ok hfind).bind ?_
    rw [List.foldlM_cons]
    refine hsourced.bind ?_
    rw [List.foldlM_cons]
    exact (hstyled _).bind (Reading.gives_pure _)
  have hmade : (Widget.ofGridElement (cellNode name attrs query tokens).content.chars none
      (cellNode name attrs query tokens).alone).Gives (some (cellWidget id kind attrs query tokens)) :=
    hidentify.bind ((hread _).map some)
  exact (hshown.widget hwell).unique hmade

theorem untagged_cellContent (hquery : ∀ a ∈ query, Settable a) (htokens : Settable ⟨"tw", tokens⟩) :
    Untagged (cellContent query tokens).chars := by
  have hsource := shut_loneTag (show TagName "datasource" by decide) hquery
  have hstyling := @shut_loneTag "styling" (by decide) [⟨"tw", tokens⟩]
    fun a ha => List.mem_singleton.mp ha ▸ htokens
  have hbreak : Shut "\n      ".toList := by decide
  have hall := (hbreak.append hsource).append ((hbreak.append hstyling).append (show Shut "\n    ".toList by decide))
  simpa [cellContent, Forest.chars, Forest.chars_append] using hall.untagged

theorem sameIn?_section : ∀ name ∈ widgetNames, sameIn? ["section"] name = none := by
  decide

theorem tagName_of_mem_widgetNames : ∀ name ∈ widgetNames, TagName name := by
  decide

/-- **The lines of a widget are one element**, of which the parser makes the widget. -/
theorem isCell_cell {id : String} {kind : WidgetKind} (hname : name ∈ widgetNames)
    (hattrs : ∀ a ∈ attrs, Settable a) (hquery : ∀ a ∈ query, Settable a) (htokens : Settable ⟨"tw", tokens⟩)
    (hid : attrs.text? "id" = some id)
    (hkind : (match attrs.text? "type" with
      | some given => WidgetKind.ofText? given
      | none => kindOfTag name) = some kind) :
    IsCell (cell name attrs query tokens) (cellWidget id kind attrs query tokens) := by
  have htag := tagName_of_mem_widgetNames name hname
  have hwell := wellFormed_cellContent hquery htokens
  have hchars : (cell name attrs query tokens).chars = '<' :: ((name.toList ++ (attrs.flatMap renderAttribute ++
      '>' :: ((cellContent query tokens).chars ++ '<' :: '/' :: name.toList))) ++ ['>']) := by
    simp [cell, element, Forest.chars, text_rendered, WrittenClose.text]
  refine ⟨wellFormed_element htag hattrs hwell, shut_element htag hattrs (untagged_cellContent hquery htokens),
    ⟨_, hchars⟩, ⟨cellNode name attrs query tokens, ?_, ?_, widget?_cell hwell hid hkind⟩, ?_⟩
  · exact nodes_element (sameIn?_foreign foreign_style hname).2 _
  · rintro rfl
    exact absurd hname (by decide)
  · exact (nodes_element_of_none (sameIn?_section name hname) _).trans
      (nodes_cellContent_eq_nil (by decide) (by decide))

end

end DashboardMarkup.Edit
