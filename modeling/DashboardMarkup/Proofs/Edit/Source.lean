import DashboardMarkup.Proofs.Edit.Lone
import DashboardMarkup.Proofs.Edit.Reach
import DashboardMarkup.Proofs.Query.Bindings

/-!
# Data sources written into widgets

The editor sets fields in the first data source block of a widget, or in a new one. The parser reads all of
them and the last one counts.

* `setDataSource_shown`: what the widget shows after the edit, and when this is what was asked for.
* `setDataSource_second`: fields that are set in the first of two blocks have no effect.
-/

namespace DashboardMarkup.Edit

open Markup Template Text

/-! ## The block -/

/-- What holds of all attributes, and of those that are set, holds of all afterwards. -/
theorem forall_mem_applyAll {P : Attribute → Prop} {attrs fields : Attributes} (hattrs : ∀ a ∈ attrs, P a)
    (hfields : ∀ a ∈ fields, P a) : ∀ a ∈ attrs.applyAll (DataSource.changes fields), P a := by
  induction fields generalizing attrs with
  | nil => exact hattrs
  | cons b rest ih =>
    refine @ih (attrs.set b.name b.value) ?_ fun a ha => hfields a (List.mem_cons_of_mem b ha)
    intro a ha
    rcases mem_set ha with rfl | ha
    · exact hfields b List.mem_cons_self
    · exact hattrs a ha

/-! ## The plan -/

/-- The attributes of the data sources among some blocks. -/
def sourcesOf (blocks : List Element) : List Attributes :=
  (blocks.filter (·.name == "datasource")).map Element.attrs

theorem attrsOf_find? (blocks : List Element) :
    attrsOf (blocks.find? (·.name == "datasource")) = (sourcesOf blocks).headD [] := by
  unfold attrsOf sourcesOf
  rw [← List.head?_filter, List.headD_eq_head?_getD, List.head?_map]

/-- The plan for fields that are not blank. -/
theorem setDataSource_eq {doc : List Char} {id : String} {w : Element} {blocks : List Element}
    (hw : elementsById doc widgetNames id = .ok [w])
    (hfirst : findFirst doc w.content "datasource" = .ok (blocks.find? (·.name == "datasource")))
    {fields : Attributes} (hfields : ∀ a ∈ fields, trimmed a.value ≠ "") :
    setDataSource doc id fields = Splice.carryOut doc
      (writeBlock doc w (blocks.find? (·.name == "datasource")) .first
        (loneTag "datasource" (((sourcesOf blocks).headD []).applyAll (DataSource.changes fields))).chars) := by
  have hgiven : fields.filter (fun a => trimmed a.value != "") = fields :=
    List.filter_eq_self.mpr fun a ha => by simpa using hfields a ha
  unfold findFirst at hfirst
  cases hfind : find doc w.content ["datasource"] with
  | error fault =>
    rw [hfind] at hfirst
    exact absurd hfirst (by simp [Except.map])
  | ok found =>
    rw [hfind] at hfirst
    have hhead : found.head? = blocks.find? (·.name == "datasource") := Except.ok.inj hfirst
    unfold setDataSource setDataSourcePlan
    simp only
    rw [blockPlan_eq hw hfind rfl, hhead, attrsOf_find?, hgiven, chars_loneTag]
    rfl

/-! ## What the parser reads -/

theorem sourcesOf_shown {doc : List Char} {ns : List Node} {es : List Element}
    (h : List.Forall₂ (Node.Shown doc) ns es) :
    sourcesOf es = (ns.filter (·.name == "datasource")).map Node.attrs := by
  have hfilter := shown_filter h (· == "datasource")
  unfold sourcesOf
  generalize ns.filter (fun n => n.name == "datasource") = ms at hfilter
  generalize es.filter (fun e => e.name == "datasource") = fs at hfilter
  induction hfilter with
  | nil => rfl
  | cons hn _ ih => rw [List.map_cons, List.map_cons, ih, hn.attrs]

theorem source?_eq (n : Node) :
    n.source? = ((((n.content.nodes blockNames).filter (·.name == "datasource")).map Node.attrs).getLast?).map
      DataSource.ofAttributes := by
  unfold Node.source? lastSource? Node.blocks
  rw [List.filter_map, List.getLast?_map, List.getLast?_map, Option.map_map, Option.map_map]
  rfl

/-- The attributes in a document without marks can be written again if no value holds a `<`. -/
theorem settable_of_mem_nodes {f : Forest} (hf : f.WellFormed) (huntagged : Untagged f.chars) {n b : Node}
    (hn : n ∈ f.nodes widgetNames) (hb : b ∈ n.content.nodes blockNames)
    (hplain : ∀ a ∈ b.attrs, '<' ∉ a.value.toList) : ∀ a ∈ b.attrs, Settable a := by
  have htags := Forest.AllTags.and hf.nested.readable (allTags_untagged huntagged)
  obtain ⟨hcontent, -⟩ := exists_tag_of_mem_nodes htags hn
  obtain ⟨-, tag, ⟨hreadable, htext⟩, hmeant⟩ := exists_tag_of_mem_nodes hcontent hb
  intro a ha
  have hplain := hplain a ha
  rw [← hmeant] at ha
  exact ⟨attributeName_of_readable hreadable a ha, hplain, untagged_meant htext a ha⟩

/-- The data source blocks that are shown after the edit: the first one is written anew, or is new. -/
def sourcesAfter (sources : List Attributes) (fields : Attributes) : List Attributes :=
  (sources.headD []).applyAll (DataSource.changes fields) :: sources.tail

/-- **A changed widget is shown in place of the old one**, with the data source that its blocks give. -/
theorem shown_swap {c : Context} (hc : c.Clear widgetNames) {x y : Forest} {old new : Node}
    (hswap : Swap x y old new) {root : Node} (h : (c.fill x).IsDashboard root) {id : String}
    (hone : ((c.fill x).nodes widgetNames).filter (·.carries id) = [old])
    (hbuilt : ∃ w ∈ (Dashboard.parse (c.fill x).chars).widgets, w.id = id ∧ w.row = none)
    (hwell : (c.fill y).WellFormed) (huntagged : Untagged (c.fill y).chars)
    (hmarkup : Dashboard.isMarkup (c.fill y).chars = true) :
    ∃ w, (Dashboard.parse (c.fill y).chars).widgets.filter (fun w => w.id == id && w.row.isNone) = [w] ∧
      w.dataSource = new.source? := by
  obtain ⟨root', h', hgrid⟩ := h.refill hswap hc hwell huntagged hmarkup
  have hcarries : old.carries id = true :=
    (List.mem_filter.mp (show old ∈ ((c.fill x).nodes widgetNames).filter (·.carries id) by
      rw [hone]; exact List.mem_singleton.mpr rfl)).2
  -- the old widget is shown
  obtain ⟨shown, hmem, hid, hrow⟩ := hbuilt
  have hshown : shown ∈ (Dashboard.parse (c.fill x).chars).widgets.filter
      (fun w => w.id == id && w.row.isNone) := List.mem_filter.mpr ⟨hmem, by simp [hid, hrow]⟩
  rw [widgets_of_id h id] at hshown
  have hne : root.gridNodes.filter (·.carries id) ≠ [] := by
    intro hnil
    rw [hnil] at hshown
    exact absurd hshown List.not_mem_nil
  have hsub := h.gridNodes_subperm.filter (·.carries id)
  rw [hone] at hsub
  have hold := eq_singleton_of_subperm hsub hne
  rw [hold] at hshown
  obtain ⟨w, hw, -⟩ := List.mem_map.mp hshown
  obtain ⟨n, hn, hwidget⟩ := List.mem_filterMap.mp hw
  obtain rfl := List.mem_singleton.mp hn
  have hmemOld : n ∈ root.gridNodes :=
    (List.mem_filter.mp (show n ∈ root.gridNodes.filter (·.carries id) by rw [hold]; exact hn)).1
  -- the new one has the same tag, and so it is shown, too
  have hnew := gridNodes_swap hswap hc hcarries (by rw [hone]; rfl) h' hgrid hne
  have hmemNew : new ∈ root'.gridNodes :=
    (List.mem_filter.mp (show new ∈ root'.gridNodes.filter (·.carries id) by
      rw [hnew]; exact List.mem_singleton.mpr rfl)).1
  have hsome : new.widget?.isSome = true := by
    rw [isSome_widget? (h'.wellFormed_of_mem hmemNew), identity?_congr hswap.name hswap.attrs,
      ← isSome_widget? (h.wellFormed_of_mem hmemOld), hwidget]
    rfl
  obtain ⟨w', hw'⟩ := Option.isSome_iff_exists.mp hsome
  obtain ⟨-, -, hsource⟩ := widget?_eq_some (h'.wellFormed_of_mem hmemNew) hw'
  refine ⟨root'.dress w', ?_, ?_⟩
  · rw [widgets_of_id h' id, hnew]
    simp [hw']
  · rw [(dress_keeps root' w').dataSource, hsource]

section

variable {f : Forest} {root : Node} {id : String} {e : Element} {blocks : List Element} {fields : Attributes}

/-- The widget is shown after the edit, with the data source of its last block. -/
theorem exists_setDataSource (h : f.IsDashboard root) (he : elementsById f.chars widgetNames id = .ok [e])
    (hbuilt : ∃ w ∈ (Dashboard.parse f.chars).widgets, w.id = id ∧ w.row = none)
    (hblocks : find f.chars e.content blockNames = .ok blocks)
    (hfirst : findFirst f.chars e.content "datasource" = .ok (blocks.find? (·.name == "datasource")))
    (hfields : ∀ a ∈ fields, Settable a ∧ trimmed a.value ≠ "")
    (hused : ∀ a ∈ (sourcesOf blocks).headD [], '<' ∉ a.value.toList)
    (hself : e.selfClosing = true → ∀ a ∈ e.attrs, '<' ∉ a.value.toList) :
    ∃ doc' w, setDataSource f.chars id fields = .ok doc' ∧
      (Dashboard.parse doc').widgets.filter (fun w => w.id == id && w.row.isNone) = [w] ∧
      w.dataSource = (sourcesAfter (sourcesOf blocks) fields).getLast?.map DataSource.ofAttributes := by
  obtain ⟨hreached, n, hn, hshown⟩ := exists_node h.wellFormed he
  obtain ⟨hnmem, hcarries⟩ := List.mem_filter.mp
    (show n ∈ (f.nodes widgetNames).filter (·.carries id) by rw [hn]; exact List.mem_singleton.mpr rfl)
  have hnwell := wellFormed_of_mem_nodes h.wellFormed hnmem
  have hname : e.name ∈ widgetNames := hshown.name ▸ name_of_mem_nodes hnmem
  -- what is written can be read back
  obtain ⟨found, hfound, hblocksShown⟩ := hshown.find hnwell (show ∀ s ∈ blockNames, Searchable s by decide)
  obtain rfl := Except.ok.inj (hblocks.symm.trans hfound)
  have hsources := sourcesOf_shown hblocksShown
  have hsettable : ∀ a ∈ (sourcesOf blocks).headD [], Settable a := by
    cases hfilter : (n.content.nodes blockNames).filter (·.name == "datasource") with
    | nil =>
      rw [hsources, hfilter]
      exact fun a ha => absurd ha List.not_mem_nil
    | cons b more =>
      have hb : b ∈ n.content.nodes blockNames := (List.mem_filter.mp
        (show b ∈ (n.content.nodes blockNames).filter (·.name == "datasource") by
          rw [hfilter]; exact List.mem_cons_self)).1
      rw [hsources, hfilter] at hused ⊢
      exact settable_of_mem_nodes h.wellFormed h.untagged hnmem hb hused
  have hwritten : ∀ a ∈ ((sourcesOf blocks).headD []).applyAll (DataSource.changes fields), Settable a :=
    forall_mem_applyAll hsettable fun a ha => (hfields a ha).1
  -- the tree is changed in one place
  obtain ⟨blocks', c, old, x, y, hblocks', rfl, hadmitted, hspells, hrewritten, hwell, -, hcarry⟩ :=
    exists_rewritten h.wellFormed (show ∀ s ∈ searchedNames widgetNames, TagName s by decide) hreached
      (show ∀ s ∈ blockNames, Searchable s by decide) "datasource"
      (wellFormed_loneTag (show TagName "datasource" by decide) (fun a ha => (hwritten a ha).name)
        fun a ha => (hwritten a ha).plain) (trim_loneTag _ _) hself .first
  obtain rfl := Except.ok.inj (hblocks.symm.trans hblocks')
  have hc := clear_of_admitted hadmitted
  have hswap := hrewritten.swap hspells hname fun left hleft =>
    nodes_loneTag_of_none _ ((show ∀ left ∈ containerNames, sameIn? [left] "datasource" = none by decide) left hleft)
  have hsame : SameTag n ⟨e.name, e.attrs, inner x⟩ := ⟨hshown.name, hshown.attrs⟩
  have htarget : ⟨e.name, e.attrs, inner x⟩ ∈ ((c.fill x).nodes widgetNames).filter (·.carries id) := by
    refine List.mem_filter.mpr ⟨?_, ?_⟩
    · rw [Context.nodes_fill hc, hswap.widgets.1]
      simp
    · rw [hsame.carries]
      exact hcarries
  rw [hn] at htarget
  obtain rfl := List.mem_singleton.mp htarget
  have huntagged : Untagged (c.fill y).chars := by
    rw [Context.chars_fill]
    refine hrewritten.untagged ?_ (shut_loneTag (show TagName "datasource" by decide) hwritten)
    rw [← Context.chars_fill]
    exact h.untagged
  have hmarkup : Dashboard.isMarkup (c.fill y).chars = true := by
    obtain ⟨e', hspells', -, -⟩ := hrewritten.spells hspells
    obtain ⟨s, hs⟩ := exists_chars hspells
    obtain ⟨t, ht⟩ := exists_chars hspells'
    have hbefore := h.markup
    rw [Context.chars_fill, hs] at hbefore
    rw [Context.chars_fill, ht]
    exact isMarkup_congr hbefore
  obtain ⟨w, hw, hsource⟩ := shown_swap hc hswap h hn hbuilt hwell huntagged hmarkup
  have hafter : w.dataSource =
      (sourcesAfter (sourcesOf blocks) fields).getLast?.map DataSource.ofAttributes := by
    rw [hsource, source?_eq, hrewritten.blocks (nodes_loneTag _ (by decide)) rfl, List.map_cons, List.map_tail, ← hsources]
    rfl
  refine ⟨_, w, ?_, hw, hafter⟩
  rw [setDataSource_eq he hfirst fun a ha => (hfields a ha).2]
  exact hcarry

/-- **Fields that are set in the data source of a widget**, in a well-formed dashboard on a grid in which it is
the only widget with its id. The widget is shown as before, with the data source of its last block; if there is
at most one, and the fields replace the last bindings, then it is that of the old attributes with the fields
behind them. -/
theorem setDataSource_shown (h : f.IsDashboard root) (he : elementsById f.chars widgetNames id = .ok [e])
    (hbuilt : ∃ w ∈ (Dashboard.parse f.chars).widgets, w.id = id ∧ w.row = none)
    (hblocks : find f.chars e.content blockNames = .ok blocks)
    (hfirst : findFirst f.chars e.content "datasource" = .ok (blocks.find? (·.name == "datasource")))
    (hfields : ∀ a ∈ fields, Settable a ∧ trimmed a.value ≠ "")
    (hused : ∀ a ∈ (sourcesOf blocks).headD [], '<' ∉ a.value.toList)
    (hself : e.selfClosing = true → ∀ a ∈ e.attrs, '<' ∉ a.value.toList) :
    ∃ doc' w, setDataSource f.chars id fields = .ok doc' ∧
      (Dashboard.parse doc').widgets.filter (fun w => w.id == id && w.row.isNone) = [w] ∧
      w.dataSource = (sourcesAfter (sourcesOf blocks) fields).getLast?.map DataSource.ofAttributes ∧
      ((sourcesOf blocks).length ≤ 1 → DataSource.Settles ((sourcesOf blocks).headD []) fields →
        w.dataSource = some (.ofAttributes ((sourcesOf blocks).headD [] ++ fields))) := by
  obtain ⟨doc', w, hset, hw, hafter⟩ := exists_setDataSource h he hbuilt hblocks hfirst hfields hused hself
  refine ⟨doc', w, hset, hw, hafter, fun hfew hsettles => ?_⟩
  have htail : (sourcesOf blocks).tail = [] := List.length_eq_zero_iff.mp (by rw [List.length_tail]; omega)
  rw [hafter, sourcesAfter, htail]
  exact congrArg some (DataSource.ofAttributes_applyAll hsettles)

end

/-! ## A key figure with data sources -/

/-- A key figure on a dashboard of its own. -/
def figureBoard (children : Forest) : Forest :=
  board (element "kpi" [⟨"id", "k"⟩] children)

/-- Its element. -/
def figureElement (children : Forest) : Element :=
  ⟨"kpi", 30, 42, [⟨"id", "k"⟩], .paired ⟨42, 42 + size children.chars⟩ (42 + size children.chars + 6)⟩

/-- A data source for a table. -/
def tableSource (table : String) : Forest :=
  loneTag "datasource" [⟨"table", table⟩]

section

variable {children : Forest}

theorem chars_figureBoard (children : Forest) : (figureBoard children).chars =
    "<dashboard layout-mode=\"grid\"><kpi id=\"k\">".toList ++ (children.chars ++ "</kpi></dashboard>".toList) := by
  have hroot : (WrittenTag.rendered "dashboard" [⟨"layout-mode", "grid"⟩] []).text =
      "<dashboard layout-mode=\"grid\"".toList := by decide
  have htag : (WrittenTag.rendered "kpi" [⟨"id", "k"⟩] []).text = "<kpi id=\"k\"".toList := by decide
  simp [figureBoard, board, element, Forest.chars, WrittenClose.text, hroot, htag]

theorem elementsById_figureBoard (h : (figureBoard children).WellFormed) :
    elementsById (figureBoard children).chars widgetNames "k" = .ok [figureElement children] := by
  have hreached : ∃ body, (figureBoard children).reached (searchedNames widgetNames) 0 =
      [⟨"dashboard", 0, 30, [⟨"layout-mode", "grid"⟩], body⟩, figureElement children] := by
    have hroot : size (WrittenTag.rendered "dashboard" [⟨"layout-mode", "grid"⟩] []).text = 29 := by decide
    have htag : size (WrittenTag.rendered "kpi" [⟨"id", "k"⟩] []).text = 11 := by decide
    have hout : (WrittenTag.rendered "dashboard" [⟨"layout-mode", "grid"⟩] []).nameIn? (searchedNames widgetNames) =
        some "dashboard" := by decide
    have hin : (WrittenTag.rendered "kpi" [⟨"id", "k"⟩] []).nameIn? (searchedNames widgetNames) = some "kpi" := by
      decide
    have hgo : (WrittenTag.rendered "dashboard" [⟨"layout-mode", "grid"⟩] []).admits (searchedNames widgetNames) =
        true := (admits_of_some hout).trans (by decide)
    have hstop : (WrittenTag.rendered "kpi" [⟨"id", "k"⟩] []).admits (searchedNames widgetNames) = false :=
      (admits_of_some hin).trans (by decide)
    have hclose : size (WrittenClose.text ⟨"kpi".toList, []⟩) = 6 := by decide
    simp only [figureBoard, figureElement, board, element, Forest.reached, hroot, htag, hout, hin, hgo, hstop, hclose,
      meant_rendered]
    exact ⟨_, rfl⟩
  obtain ⟨body, hreached⟩ := hreached
  rw [elementsById_wellFormed (by decide) h, hreached]
  rfl

theorem find_figureBoard (h : children.WellFormed) {names : List String} (hnames : ∀ s ∈ names, Searchable s) :
    find (figureBoard children).chars (figureElement children).content names =
      .ok (children.outermost names 42) := by
  rw [chars_figureBoard]
  exact find_forest hnames h "<dashboard layout-mode=\"grid\"><kpi id=\"k\">".toList "</kpi></dashboard>".toList

theorem isDashboard_figureBoard (hwell : (figureBoard children).WellFormed)
    (huntagged : Untagged (figureBoard children).chars) (hgroup : children.nodes ["group"] = []) :
    (figureBoard children).IsDashboard (boardRoot (element "kpi" [⟨"id", "k"⟩] children)) := by
  refine isDashboard_board hwell huntagged fun n hn _ => ?_
  rw [nodes_element (by decide)] at hn
  rw [List.mem_singleton.mp hn]
  exact hgroup

/-- The first data source in it is the first block. -/
theorem findFirst_figureBoard (h : children.WellFormed)
    (hfirst : (children.outermost ["datasource"] 42).head? =
      (children.outermost blockNames 42).find? (·.name == "datasource")) :
    findFirst (figureBoard children).chars (figureElement children).content "datasource" =
      .ok ((children.outermost blockNames 42).find? (·.name == "datasource")) := by
  unfold findFirst
  rw [find_figureBoard h (by decide), ← hfirst]
  rfl

/-- The key figure is shown. -/
theorem mem_widgets_figureBoard {root : Node} (h : (figureBoard children).IsBoard root)
    (hshown : (root.content.rowParts.flatMap RowPart.widgets ++ root.placedWidgets).map (fun w => (w.id, w.row)) =
      [("k", none)]) :
    ∃ w ∈ (Dashboard.parse (figureBoard children).chars).widgets, w.id = "k" ∧ w.row = none := by
  have hmem : (("k", none) : String × Option String) ∈
      (root.content.rowParts.flatMap RowPart.widgets ++ root.placedWidgets).map (fun w => (w.id, w.row)) := by
    rw [hshown]
    exact List.mem_cons_self
  obtain ⟨w, hw, hpair⟩ := List.mem_map.mp hmem
  have hkeeps := dress_keeps root w
  refine ⟨root.dress w, ?_, ?_, ?_⟩
  · rw [h.widgets]
    exact List.mem_map_of_mem hw
  · rw [hkeeps.id]
    exact congrArg Prod.fst hpair
  · rw [hkeeps.row]
    exact congrArg Prod.snd hpair

end

/-- The fields that are set. -/
theorem settable_table : ∀ a ∈ [(⟨"table", "c"⟩ : Attribute)], Settable a ∧ trimmed a.value ≠ "" := by
  intro a ha
  rw [List.mem_singleton.mp ha]
  exact ⟨⟨by decide, by decide, by decide⟩, by decide⟩

/-- They replace the binding of a table. -/
theorem settles_table : DataSource.Settles [⟨"table", "a"⟩] [⟨"table", "c"⟩] := by
  refine ⟨fun b _ => List.pairwise_singleton _ _, List.pairwise_singleton _ _, fun b hb s hs hlimit => ?_⟩
  rw [List.mem_singleton.mp hb, show DataSource.slot? "table" = some .table by decide] at hs
  exact absurd ((Option.some.inj hs).trans hlimit) (by decide)

/-- One data source is changed. -/
theorem setDataSource_shown_single :
    ∃ root, (figureBoard (tableSource "a")).IsDashboard root ∧ ∃ doc' w,
      setDataSource (figureBoard (tableSource "a")).chars "k" [⟨"table", "c"⟩] = .ok doc' ∧
        (Dashboard.parse doc').widgets.filter (fun w => w.id == "k" && w.row.isNone) = [w] ∧
        w.dataSource = some { table := some "c" } := by
  have hwell : (figureBoard (tableSource "a")).WellFormed := by decide +kernel
  have hinside : (tableSource "a").WellFormed := by decide +kernel
  have hboard := isDashboard_figureBoard hwell (by decide +kernel) (nodes_loneTag_of_none _ (by decide))
  have hsources : sourcesOf ((tableSource "a").outermost blockNames 42) = [[⟨"table", "a"⟩]] := by decide +kernel
  obtain ⟨doc', w, hset, hw, -, hsource⟩ :=
    setDataSource_shown hboard (elementsById_figureBoard hwell)
      (mem_widgets_figureBoard hboard.toIsBoard (by decide +kernel))
      (find_figureBoard hinside (by decide)) (findFirst_figureBoard hinside (by decide +kernel)) settable_table
      (by rw [hsources]; decide) (fun hself => absurd hself (by decide))
  rw [hsources] at hsource
  exact ⟨_, hboard, doc', w, hset, hw, (hsource (by decide) settles_table).trans (by decide +kernel)⟩

/-- **Fields that are set in the first of two data sources have no effect.** -/
theorem setDataSource_second :
    ∃ root, (figureBoard ((tableSource "a").append (tableSource "b"))).IsDashboard root ∧ ∃ doc' w,
      setDataSource (figureBoard ((tableSource "a").append (tableSource "b"))).chars "k" [⟨"table", "c"⟩] = .ok doc' ∧
        (Dashboard.parse doc').widgets.filter (fun w => w.id == "k" && w.row.isNone) = [w] ∧
        w.dataSource = some { table := some "b" } := by
  have hwell : (figureBoard ((tableSource "a").append (tableSource "b"))).WellFormed := by decide +kernel
  have hinside : ((tableSource "a").append (tableSource "b")).WellFormed := by decide +kernel
  have hboard := isDashboard_figureBoard hwell (by decide +kernel) (List.length_eq_zero_iff.mp (by decide +kernel))
  have hsources : sourcesOf (((tableSource "a").append (tableSource "b")).outermost blockNames 42) =
      [[⟨"table", "a"⟩], [⟨"table", "b"⟩]] := by decide +kernel
  obtain ⟨doc', w, hset, hw, hsource⟩ :=
    exists_setDataSource hboard (elementsById_figureBoard hwell)
      (mem_widgets_figureBoard hboard.toIsBoard (by decide +kernel))
      (find_figureBoard hinside (by decide)) (findFirst_figureBoard hinside (by decide +kernel)) settable_table
      (by rw [hsources]; decide) (fun hself => absurd hself (by decide))
  rw [hsources] at hsource
  exact ⟨_, hboard, doc', w, hset, hw, hsource.trans (by decide +kernel)⟩

end DashboardMarkup.Edit
