import DashboardMarkup.Proofs.Document.Settings
import DashboardMarkup.Proofs.Edit.Cell

/-!
# New widgets

A key figure or a chart that is added to a group of a document on a grid comes last in the group, and it is
shown with what was asked for. Two things are read otherwise than they are written. A unit is a styling token, and
so it ends before its first blank; a table is set apart from its schema once more when it is read.

* `exists_words_allTokens`: the token of a unit is the last word of the tokens.
* `NewWidget.Fits`: what can be written.
* `NewWidget.cellWidget_eq`: what the parser makes of the lines is the widget that was asked for.
* `NewWidget.ShownAs`: a widget that is shown as it was asked for.
* `insert_shown`: so is a new widget, and nothing else is changed.
* `insert_misread`: a unit with a blank and a table with two dots are not.
-/

namespace DashboardMarkup.Edit

open Markup Template Text

/-! ## Styling tokens -/

/-- What a token for a unit says. -/
theorem read_unit {u : String} (hu : u ≠ "") :
    Token.read ("kpi:unit:" ++ u).toList = { write := some (.label .unit u) } := by
  have hne : u.toList.isEmpty = false := by simpa using hu
  have hparts : ("kpi:unit:" ++ u).toList = "kpi".toList ++ ':' :: ("unit".toList ++ ':' :: u.toList) := by
    rw [String.toList_append]
    rfl
  have hlabel : Token.labelValue? u.toList = some u := by
    simp [Token.labelValue?, hne, String.ofList_toList]
  rw [hparts]
  show Token.setLabel .unit u.toList = _
  unfold Token.setLabel
  rw [hlabel]
  rfl

/-- **A unit without blanks is the last word of the tokens.** -/
theorem exists_words_allTokens {k : NewKpi} {u : String} (hunit : k.unit = some u)
    (hblank : ∀ c ∈ u.toList, isBlank c = false) :
    ∃ before, words k.allTokens.toList = before ++ [("kpi:unit:" ++ u).toList] := by
  have hword : words ("kpi:unit:" ++ u).toList = [("kpi:unit:" ++ u).toList] := by
    have hall : ∀ c ∈ ("kpi:unit:" ++ u).toList, isBlank c = false := by
      intro c hc
      rw [String.toList_append] at hc
      rcases List.mem_append.mp hc with hc | hc
      · exact (show ∀ c ∈ "kpi:unit:".toList, isBlank c = false by decide) c hc
      · exact hblank c hc
    exact words_of_no_blank (by rw [String.toList_append]; exact List.cons_ne_nil _ _) hall
  unfold NewKpi.allTokens
  rw [hunit, String.toList_intercalate]
  cases k.tokens.bind nonblank? with
  | none =>
    refine ⟨[], ?_⟩
    rw [List.nil_append, ← hword]
    simp [List.intercalate]
  | some t =>
    refine ⟨words t.toList, ?_⟩
    rw [← hword, ← words_append (show isBlank ' ' = true by decide)]
    simp [List.intercalate]

/-- **So it is the unit that the tokens set.** -/
theorem unit_applyTokens {k : NewKpi} {u : String} (hunit : k.unit = some u)
    (hblank : ∀ c ∈ u.toList, isBlank c = false) (hu : u ≠ "") (s : Styling) :
    (s.applyTokens k.allTokens).unit = some u := by
  obtain ⟨before, hwords⟩ := exists_words_allTokens hunit hblank
  unfold Styling.applyTokens
  rw [hwords, List.foldl_append]
  simp only [List.foldl_cons, List.foldl_nil, Styling.applyToken, read_unit hu]
  rfl

/-! ## What is asked for -/

/-- A widget that is asked for. -/
inductive NewWidget
  | kpi (k : NewKpi)
  | chart (c : NewChart)

namespace NewWidget

/-- Adds the widget to the first group with an id. -/
def insert (doc : List Char) (group : String) : NewWidget → Edited (List Char)
  | kpi k => insertKpi doc group k
  | chart c => insertChart doc group c

/-- The name of its element. -/
def name : NewWidget → String
  | kpi _ => "kpi"
  | chart _ => "chart"

/-- Its id. -/
def id : NewWidget → String
  | kpi k => k.id
  | chart c => c.id

/-- Its title. -/
def title : NewWidget → String
  | kpi k => k.title.getD k.id
  | chart c => c.title.getD c.id

/-- Its height. -/
def height : NewWidget → Nat
  | kpi k => k.height
  | chart c => c.height

/-- Its width. -/
def width : NewWidget → String
  | kpi k => k.width
  | chart c => c.width

/-- Its type, which only a chart has. -/
def type? : NewWidget → Option String
  | kpi _ => none
  | chart c => some c.kind

/-- Its kind, if its type is known. -/
def kind? (n : NewWidget) : Option WidgetKind :=
  match n.type? with
  | some given => WidgetKind.ofText? given
  | none => some .kpi

/-- Its unit, which only a key figure has. -/
def unit? : NewWidget → Option String
  | kpi k => k.unit
  | chart _ => none

/-- The attributes of its tag. -/
def attrs (n : NewWidget) : Attributes :=
  ⟨"id", n.id⟩ :: (attribute? "type" n.type? ++
    [⟨"width", n.width⟩, ⟨"height", toString n.height⟩, ⟨"title", n.title⟩])

/-- The attributes of its data source. -/
def query : NewWidget → Attributes
  | kpi k => k.query.attrs false
  | chart c => c.query.attrs true

/-- Its styling tokens, with one for the unit. -/
def tokens : NewWidget → String
  | kpi k => k.allTokens
  | chart c => c.tokens.getD ""

/-- What is written of it. -/
def written (n : NewWidget) : Attributes :=
  n.attrs ++ n.query ++ [⟨"tw", n.tokens⟩]

/-- **A widget that can be written**: its kind is known and its width is one in fractions, and no text in it
holds `<` or an opening mark of a template. -/
structure Fits (n : NewWidget) : Prop where
  id : Solid n.id
  title : Solid n.title
  type : ∀ t ∈ n.type?, Solid t
  kind : n.kind?.isSome = true
  width : fraction? n.width = some n.width
  height : n.height ≤ Whole.maxCount
  free : ∀ a ∈ n.written, '<' ∉ a.value.toList ∧ Untagged a.value.toList

/-- The widget of a kind that is asked for, before its tokens. -/
def unstyled (n : NewWidget) (kind : WidgetKind) : Widget :=
  { id := n.id
    kind
    title := some n.title
    span := some (.uniform 1)
    height := some n.height
    width := some (.uniform (some n.width))
    dataSource := some (.ofAttributes n.query) }

/-- The widget of a kind that is asked for. -/
def widget (n : NewWidget) (kind : WidgetKind) : Widget :=
  styled n.tokens (n.unstyled kind)

theorem insert_eq (n : NewWidget) (doc : List Char) (group : String) : n.insert doc group =
    Splice.carryOut doc (linesPlan doc group (cellLines (cell n.name n.attrs n.query n.tokens))) := by
  rw [← widgetLines_eq]
  cases n <;> rfl

theorem name_mem (n : NewWidget) : n.name ∈ widgetNames := by
  cases n with
  | kpi k => exact (by decide : "kpi" ∈ widgetNames)
  | chart c => exact (by decide : "chart" ∈ widgetNames)

/-! ## What is written -/

theorem name_of_mem_attribute? {name : String} {v : Option String} {a : Attribute} (h : a ∈ attribute? name v) :
    a.name = name := by
  cases v with
  | none => exact absurd h List.not_mem_nil
  | some s => rw [List.mem_singleton.mp h]

/-- The names of the attributes that are written. -/
def writtenNames : List String :=
  ["id", "type", "width", "height", "title", "schema", "table", "dimension", "measure", "tw"]

/-- The names of the attributes of a tag. -/
def tagNames : List String :=
  ["id", "type", "width", "height", "title"]

section

variable {n : NewWidget} {a : Attribute}

theorem name_of_mem_attrs (h : a ∈ n.attrs) : a.name ∈ tagNames := by
  rcases List.mem_cons.mp h with rfl | h
  · exact List.mem_cons_self
  · rcases List.mem_append.mp h with h | h
    · rw [name_of_mem_attribute? h]
      decide
    · simp only [List.mem_cons, List.not_mem_nil, or_false] at h
      rcases h with rfl | rfl | rfl
      all_goals simp [tagNames]

theorem name_of_mem_query (h : a ∈ n.query) : a.name ∈ ["schema", "table", "dimension", "measure"] := by
  have hall : ∀ (q : NewQuery) (withDimension : Bool), a ∈ q.attrs withDimension →
      a.name ∈ ["schema", "table", "dimension", "measure"] := fun q withDimension h => by
    rw [NewQuery.attrs_eq, List.mem_append, List.mem_append, List.mem_append] at h
    rcases h with ((h | h) | h) | h
    all_goals
      rw [name_of_mem_attribute? h]
      decide
  cases n with
  | kpi k => exact hall k.query false h
  | chart c => exact hall c.query true h

theorem name_of_mem_written (h : a ∈ n.written) : a.name ∈ writtenNames := by
  rcases List.mem_append.mp h with h | h
  · rcases List.mem_append.mp h with h | h
    · exact (show ∀ name ∈ tagNames, name ∈ writtenNames by decide) _ (name_of_mem_attrs h)
    · exact (show ∀ name ∈ ["schema", "table", "dimension", "measure"], name ∈ writtenNames by decide) _
        (name_of_mem_query h)
  · rw [List.mem_singleton.mp h]
    exact (show "tw" ∈ writtenNames by decide)

/-- What is written can be written into a document. -/
theorem Fits.settable (hn : n.Fits) (h : a ∈ n.written) : Settable a := by
  obtain ⟨hplain, huntagged⟩ := hn.free a h
  have hname := name_of_mem_written h
  exact ⟨(show ∀ name ∈ writtenNames, AttributeName name by decide) _ hname, hplain,
    (show ∀ name ∈ writtenNames, Untagged name.toList by decide) _ hname, huntagged⟩

end

/-! ## What is read -/

section

variable (n : NewWidget)

theorem get?_attrs : n.attrs.get? "id" = some n.id ∧ n.attrs.get? "type" = n.type? ∧
    n.attrs.get? "width" = some n.width ∧ n.attrs.get? "height" = some (toString n.height) ∧
    n.attrs.get? "title" = some n.title := by
  cases n <;> simp [attrs, attribute?, Attributes.get?, type?]

variable {n}

/-- Nothing else is in the tag. -/
theorem get?_attrs_of_not_mem {name : String} (h : name ∉ tagNames) : n.attrs.get? name = none := by
  refine Option.map_eq_none_iff.mpr (List.find?_eq_none.mpr fun a ha hname => h ?_)
  rw [← beq_iff_eq.mp hname]
  exact name_of_mem_attrs ha

/-- A width in fractions is not empty. -/
theorem solid_of_fraction? {s : String} (h : fraction? s = some s) : Solid s := by
  unfold fraction? at h
  split at h
  · next front hfront =>
    split at h
    · refine ⟨Option.some.inj h, ?_⟩
      rintro rfl
      rw [show stripSuffix? "fr".toList (trim "".toList) = none by decide] at hfront
      exact absurd hfront (by simp)
    · exact absurd h (by simp)
  · exact absurd h (by simp)

theorem widthOf_attrs (hn : n.Fits) : Widget.widthOf n.attrs = .uniform (some n.width) := by
  obtain ⟨-, -, hwidth, -, -⟩ := n.get?_attrs
  have hnone : ∀ name ∉ tagNames, n.attrs.text? name = none := fun name h =>
    Attributes.text?_of_get?_none (get?_attrs_of_not_mem h)
  have hsolid : Solid n.width := solid_of_fraction? hn.width
  have hread : (n.attrs.text? "width").bind fraction? = some n.width := by
    rw [Attributes.text?_of_get? hwidth hsolid]
    exact hn.width
  unfold Widget.widthOf
  simp only [hread, hnone "width-d" (by decide), hnone "width-t" (by decide), hnone "width-m" (by decide)]
  rfl

theorem gridStartOf_attrs : Widget.gridStartOf n.attrs none = .uniform none := by
  have hnone : ∀ name ∉ tagNames, n.attrs.positive? name = none := fun name h =>
    Attributes.positive?_of_get?_none (get?_attrs_of_not_mem h)
  unfold Widget.gridStartOf
  simp only [hnone "col" (by decide), hnone "col-d" (by decide), hnone "col-t" (by decide),
    hnone "col-m" (by decide)]
  rfl

theorem ofTag_attrs (hn : n.Fits) (kind : WidgetKind) : Widget.ofTag n.id kind n.attrs =
    { id := n.id, kind, title := some n.title, height := some n.height, span := some (.uniform 1) } := by
  obtain ⟨-, -, -, hheight, htitle⟩ := n.get?_attrs
  have hnone : ∀ name ∉ tagNames, n.attrs.get? name = none := fun name h => get?_attrs_of_not_mem h
  have horder : n.attrs.signed? "order" = none := by
    unfold Attributes.signed?
    rw [Attributes.text?_of_get?_none (hnone "order" (by decide)), Option.bind_none]
  have htitles : n.attrs.first? ["titles-order", "titlesOrder"] = none := by
    rw [Attributes.first?_of_get?_none (hnone _ (by decide)), Attributes.first?_of_get?_none (hnone _ (by decide))]
    rfl
  have hspan : n.attrs.breakpoints "span" (.uniform 1) = .uniform 1 := by
    unfold Attributes.breakpoints
    simp only [Attributes.positive?_of_get?_none (hnone "span" (by decide)),
      Attributes.positive?_of_get?_none (hnone ("span" ++ "-d") (by decide)),
      Attributes.positive?_of_get?_none (hnone ("span" ++ "-t") (by decide)),
      Attributes.positive?_of_get?_none (hnone ("span" ++ "-m") (by decide))]
    rfl
  unfold Widget.ofTag
  rw [Attributes.text?_of_get? htitle hn.title, horder, Attributes.count?_of_get? hheight hn.height, htitles, hspan]
  rfl

/-- **What the parser makes of the lines** is the widget that was asked for. -/
theorem cellWidget_eq (hn : n.Fits) (kind : WidgetKind) :
    cellWidget n.id kind n.attrs n.query n.tokens = n.widget kind := by
  unfold cellWidget widget
  rw [ofTag_attrs hn, widthOf_attrs hn, gridStartOf_attrs]
  rfl

theorem kind_of_text (hn : n.Fits) {kind : WidgetKind} (hkind : n.kind? = some kind) :
    (match n.attrs.text? "type" with
      | some given => WidgetKind.ofText? given
      | none => kindOfTag n.name) = some kind := by
  obtain ⟨-, htype, -⟩ := n.get?_attrs
  cases n with
  | kpi k =>
    rw [Attributes.text?_of_get?_none htype]
    exact hkind
  | chart c =>
    rw [Attributes.text?_of_get? htype (hn.type c.kind rfl)]
    exact hkind

/-- **What is asked for can be written into a document.** -/
theorem Fits.isCell (hn : n.Fits) {kind : WidgetKind} (hkind : n.kind? = some kind) :
    IsCell (cell n.name n.attrs n.query n.tokens) (n.widget kind) := by
  rw [← cellWidget_eq hn]
  have hid : n.attrs.text? "id" = some n.id := Attributes.text?_of_get? n.get?_attrs.1 hn.id
  refine isCell_cell n.name_mem (fun a ha => ?_) (fun a ha => ?_) ?_ hid (kind_of_text hn hkind)
  · exact hn.settable (List.mem_append_left _ (List.mem_append_left _ ha))
  · exact hn.settable (List.mem_append_left _ (List.mem_append_right _ ha))
  · exact hn.settable (List.mem_append_right _ List.mem_cons_self)

/-- **A widget that is shown as it was asked for.** The settings of its tokens may come with those of a theme; a
unit with a blank in it is none, and a query is shown that is read as it is written. -/
structure ShownAs (n : NewWidget) (w : Widget) : Prop where
  id : w.id = n.id
  kind : n.kind? = some w.kind
  title : w.title = some n.title
  height : w.height = some n.height
  width : w.width = some (.uniform (some n.width))
  settings : ∀ f v, (({} : Styling).applyTokens n.tokens).member? f = some v →
    ∃ s, w.styling? = some s ∧ s.member? f = some v
  unit : ∀ u ∈ n.unit?, u ≠ "" → (∀ c ∈ u.toList, isBlank c = false) →
    ∃ s, w.styling? = some s ∧ s.unit = some u
  source : Stable n.query → w.dataSource =
    some { schema := n.query.get? "schema", table := n.query.get? "table",
           dimension := n.query.get? "dimension", measure := n.query.get? "measure" }

/-- Blank tokens do not count. -/
theorem styled_eq (tokens : String) (w : Widget) :
    styled tokens w = if trimmed tokens = "" then w else w.applyTokens tokens := by
  have hfirst : Attributes.first? [⟨"tw", tokens⟩] ["tw", "class"] =
      if trimmed tokens = "" then none else some (trimmed tokens) := by
    unfold Attributes.first?
    by_cases h : trimmed tokens = "" <;> simp [Attributes.get?, h]
  unfold styled
  rw [hfirst]
  split
  · rfl
  · simp only [Option.map_some, Option.getD_some, Widget.applyTokens, Styling.applyTokens_trimmed]

theorem exists_styled (tokens : String) (w : Widget) :
    ∃ config styling, styled tokens w = { w with config, styling } := by
  rw [styled_eq]
  split
  · exact ⟨w.config, w.styling, rfl⟩
  · exact w.exists_mapStyling _

/-- What the tokens set is set of the widget. -/
theorem styling?_widget (kind : WidgetKind) {f : Styling.Field} {v : Json}
    (h : (({} : Styling).applyTokens n.tokens).member? f = some v) :
    (n.widget kind).styling? = some (({} : Styling).applyTokens n.tokens) := by
  have hnone : ∀ f, ({} : Styling).member? f = none := fun f => by
    cases f with
    | switch f => cases f <;> rfl
    | measure f => cases f <;> rfl
    | label f => cases f <;> rfl
    | axis => rfl
    | colors => rfl
  unfold widget
  rw [styled_eq]
  split
  · next hblank =>
    rw [Styling.applyTokens_of_trimmed_eq_empty hblank, hnone f] at h
    exact absurd h (by simp)
  · refine (Widget.styling?_mapStyling _ _).trans ?_
    cases hdata : kind.showsData <;> simp [Widget.styling?, unstyled, hdata]

/-- The unit is among the settings of the tokens. -/
theorem member?_unit {u : String} (hunit : u ∈ n.unit?) (hu : u ≠ "") (hblank : ∀ c ∈ u.toList, isBlank c = false) :
    (({} : Styling).applyTokens n.tokens).member? (.label .unit) = some (.string u) := by
  cases n with
  | kpi k => exact congrArg (Option.map Json.string) (unit_applyTokens hunit hblank hu {})
  | chart c => exact absurd hunit (by simp [unit?])

theorem ofAttributes_query (h : Stable n.query) : DataSource.ofAttributes n.query =
    { schema := n.query.get? "schema", table := n.query.get? "table", dimension := n.query.get? "dimension",
      measure := n.query.get? "measure" } := by
  cases n with
  | kpi k => exact k.query.ofAttributes_attrs false h
  | chart c => exact c.query.ofAttributes_attrs true h

/-- **The widget that is asked for is shown so**, also under a theme. -/
theorem shownAs_widget (root : Node) {kind : WidgetKind} (hkind : n.kind? = some kind) :
    n.ShownAs (root.dress (n.widget kind)) := by
  have hsettings : ∀ f v, (({} : Styling).applyTokens n.tokens).member? f = some v →
      ∃ s, (root.dress (n.widget kind)).styling? = some s ∧ s.member? f = some v := fun f v h =>
    member?_dress root (styling?_widget kind h) h
  obtain ⟨config, styling, container, hshown⟩ : ∃ config styling container,
      root.dress (n.widget kind) = { n.unstyled kind with config, styling, container } := by
    obtain ⟨config, styling, hstyled⟩ := exists_styled n.tokens (n.unstyled kind)
    obtain ⟨config', styling', container, hdress⟩ := exists_dress root (n.widget kind)
    refine ⟨config', styling', container, ?_⟩
    rw [hdress, widget, hstyled]
  refine ⟨by rw [hshown, unstyled], by rw [hshown]; exact hkind, by rw [hshown, unstyled], by rw [hshown, unstyled],
    by rw [hshown, unstyled], hsettings, fun u hu hne hblank => ?_, fun hstable => ?_⟩
  · obtain ⟨s, hs, hunit⟩ := hsettings (.label .unit) (.string u) (member?_unit hu hne hblank)
    obtain ⟨u', hu', hsame⟩ := Option.map_eq_some_iff.mp hunit
    rw [Json.string.inj hsame] at hu'
    exact ⟨s, hs, hu'⟩
  · rw [hshown]
    exact congrArg some (ofAttributes_query hstable)

end

end NewWidget

section

variable {f : Forest} {root : Node} {front x back : Forest} {e : Element} {id : String} {n : NewWidget}

/-- A widget that is asked for comes to its group. -/
theorem exists_insert (h : f.IsBoard root) (hid : id ≠ "") (hone : elementsById f.chars ["group"] id = .ok [e])
    (hx : x.Spells ["group"] e.start e) (hcontent : root.content = front.append (x.append back))
    (hself : e.selfClosing = true → ∀ a ∈ e.attrs, '<' ∉ a.value.toList) (hn : n.Fits) {kind : WidgetKind}
    (hkind : n.kind? = some kind) :
    ∃ doc', n.insert f.chars id = .ok doc' ∧ Joins f.chars doc' id (root.dress (n.widget kind)) := by
  rw [n.insert_eq]
  exact exists_insertLines h hid hone hx hcontent hself (hn.isCell hkind)

/-- **A new widget is shown as it was asked for**, as the last member of its group; nothing else is changed. The
document is on a grid, and the group is the only one with its id and stands at the top of the dashboard. -/
theorem insert_shown (h : f.IsBoard root) (hid : id ≠ "") (hone : elementsById f.chars ["group"] id = .ok [e])
    (hx : x.Spells ["group"] e.start e) (hcontent : root.content = front.append (x.append back))
    (hself : e.selfClosing = true → ∀ a ∈ e.attrs, '<' ∉ a.value.toList) (hn : n.Fits) :
    ∃ doc' w, n.insert f.chars id = .ok doc' ∧ Joins f.chars doc' id w ∧ n.ShownAs w := by
  obtain ⟨kind, hkind⟩ := Option.isSome_iff_exists.mp hn.kind
  obtain ⟨doc', hinsert, hjoins⟩ := exists_insert h hid hone hx hcontent hself hn hkind
  exact ⟨doc', _, hinsert, hjoins, n.shownAs_widget root hkind⟩

end

/-! ## A group without members -/

/-- A group without members. -/
def emptyGroup : Forest :=
  element "group" [⟨"id", "g"⟩] .nil

/-- Its element in a dashboard of its own. -/
def emptyGroupElement : Element :=
  ⟨"group", 30, 44, [⟨"id", "g"⟩], .paired ⟨44, 44⟩ 52⟩

theorem isBoard_emptyGroup : (board emptyGroup).IsBoard (boardRoot emptyGroup) :=
  isBoard_board (by decide +kernel) (by decide +kernel)

theorem elementsById_emptyGroup :
    elementsById (board emptyGroup).chars ["group"] "g" = .ok [emptyGroupElement] :=
  (elementsById_wellFormed searchable_of_mem_searchedGroup isBoard_emptyGroup.wellFormed _).trans (by decide +kernel)

theorem spells_emptyGroup : emptyGroup.Spells ["group"] emptyGroupElement.start emptyGroupElement := by
  have hspells := @Forest.Spells.paired ["group"] 30 (.rendered "group" [⟨"id", "g"⟩] []) .nil ⟨"group".toList, []⟩
    "group" (by decide)
  exact (congrArg (emptyGroup.Spells ["group"] 30) (show _ = emptyGroupElement by decide +kernel)).mp hspells

/-- A key figure with a unit, and a table with its schema. -/
def revenue : NewWidget :=
  .kpi { id := "k", unit := some "R$", query := { table := some "sales.orders", measure := some "id" } }

theorem fits_revenue : revenue.Fits where
  id := by decide
  title := by decide
  type := by decide
  kind := by decide
  width := by decide
  height := by decide
  free := by decide

/-- So is a key figure with a unit and a table. -/
theorem insert_shown_revenue :
    (board emptyGroup).IsBoard (boardRoot emptyGroup) ∧ revenue.Fits ∧ Stable revenue.query ∧
      ∃ doc' w, revenue.insert (board emptyGroup).chars "g" = .ok doc' ∧
        Joins (board emptyGroup).chars doc' "g" w ∧ revenue.ShownAs w :=
  ⟨isBoard_emptyGroup, fits_revenue,
    NewQuery.stable_attrs { table := some "sales.orders", measure := some "id" } false (by decide)
      (by decide +kernel) (by decide +kernel),
    @insert_shown _ _ .nil emptyGroup .nil _ _ _ isBoard_emptyGroup (by decide) elementsById_emptyGroup
      spells_emptyGroup rfl (by decide) fits_revenue⟩

/-- A key figure with a blank in its unit and two dots in its table. -/
def dotted : NewWidget :=
  .kpi { id := "k", unit := some "R $", query := { table := some "a.b.c" } }

theorem fits_dotted : dotted.Fits where
  id := by decide
  title := by decide
  type := by decide
  kind := by decide
  width := by decide
  height := by decide
  free := by decide

/-- **A unit is cut at a blank, and a table at its last dot.** -/
theorem insert_misread :
    dotted.Fits ∧ dotted.unit? = some "R $" ∧ dotted.query = [⟨"schema", "a"⟩, ⟨"table", "b.c"⟩] ∧
      ∃ doc' w, dotted.insert (board emptyGroup).chars "g" = .ok doc' ∧ (Dashboard.parse doc').widgets = [w] ∧
        w.styling?.bind Styling.unit = some "R" ∧
        w.dataSource = some { schema := some "a", table := some "c" } := by
  obtain ⟨doc', hinsert, hjoins⟩ := @exists_insert _ _ .nil emptyGroup .nil _ _ _ isBoard_emptyGroup (by decide)
    elementsById_emptyGroup spells_emptyGroup rfl (by decide) fits_dotted .kpi rfl
  obtain ⟨left, right, hwidgets, hwidgets'⟩ := hjoins.widgets
  have hnone : (Dashboard.parse (board emptyGroup).chars).widgets = [] :=
    isBoard_emptyGroup.widgets.trans (List.length_eq_zero_iff.mp (by decide +kernel))
  rw [hnone] at hwidgets
  obtain ⟨rfl, rfl⟩ := List.append_eq_nil_iff.mp hwidgets.symm
  refine ⟨fits_dotted, rfl, by decide +kernel, doc', _, hinsert, hwidgets', ?_, ?_⟩
  · decide +kernel
  · decide +kernel

end DashboardMarkup.Edit
