import DashboardMarkup.Proofs.Edit.Exact
import DashboardMarkup.Proofs.Edit.Kept

/-!
# Attributes that are set read back

An attribute that is set in a well-formed document should read back, and nothing else should change. What is
written into the tag always says what it should. Whether the document can still be read is another matter:
a `<` in a value is not escaped, and the search for the close tag of an element around the tag takes what
follows it for markup.

* `setAttribute_forest`: the edit writes the tags of the tree anew, and nothing else.
* `setAttribute_reads_back`: the attribute reads back exactly if each close tag of the new text is found; this
  is so whenever no value that is written has a `<`.
* `setAttribute_markup_value`: a value with a close tag makes the document unreadable.
-/

namespace DashboardMarkup.Edit

open Markup Text

/-! ## What should come of the edit -/

/-- Whether a name and attributes are those of a widget or group with an id. -/
def isNode (id name : String) (attrs : Attributes) : Bool :=
  nodeNames.contains name && (attrs.get? "id").map trimmed == some id

/-- A tree with an attribute of every widget and group with an id set. -/
def attributeSet (id name value : String) (f : Forest) : Forest :=
  f.retagged (searchedNames nodeNames) (isNode id) fun attrs => attrs.set name value

/-- **An attribute that has been set reads back.** The elements with the id are as many as before, in the
same order, and have the value among the attributes they had. Of all elements that are reached, each has its
name, its content but for the tags that are edited in it, and, unless it has the id, its attributes. -/
structure ReadsBack (doc doc' : List Char) (id name value : String) : Prop where
  edited : ∃ found found', elementsById doc nodeNames id = .ok found ∧
    elementsById doc' nodeNames id = .ok found' ∧
      List.Forall₂ (fun e e' => e'.name = e.name ∧ e'.attrs = e.attrs.set name value ∧
        e'.attrs.get? name = some value) found found'
  reached : ∃ splices all all', setAttributePlan doc id name value = .ok splices ∧
    walk doc (searchedNames nodeNames) ⟨0, size doc⟩ = .ok all ∧
      walk doc' (searchedNames nodeNames) ⟨0, size doc'⟩ = .ok all' ∧
        List.Forall₂ (fun e e' => e.Becomes doc doc' splices
          (if e.answers nodeNames id then e.attrs.set name value else e.attrs) e') all all'

/-- No value that is written anew has a `<`: not the one that is set, and none of a tag that is edited. -/
def Harmless (id value : String) (f : Forest) : Prop :=
  '<' ∉ value.toList ∧ f.AllTags fun t =>
    (t.chosen? (searchedNames nodeNames) (isNode id)).isSome → ∀ a ∈ t.meant, '<' ∉ a.value.toList

/-! ## What the edit writes -/

theorem tagName_of_mem_searched : ∀ name ∈ searchedNames nodeNames, TagName name := by
  decide

theorem attributeName_of_mem_set {name : String} (hname : AttributeName name) (value : String)
    (attrs : Attributes) (hattrs : ∀ a ∈ attrs, AttributeName a.name) :
    ∀ a ∈ attrs.set name value, AttributeName a.name := by
  intro a ha
  rcases mem_set ha with rfl | ha
  · exact hname
  · exact hattrs a ha

theorem searchable_of_mem_searched (name : String) (hname : name ∈ searchedNames nodeNames) :
    Searchable name :=
  (tagName_of_mem_searched name hname).searchable

theorem setAttributePlan_forest {f : Forest} (hf : f.WellFormed) (id name value : String) :
    setAttributePlan f.chars id name value =
      .ok (retagPlan (isNode id) (fun attrs => attrs.set name value)
        (f.reached (searchedNames nodeNames) 0)) := by
  unfold setAttributePlan
  rw [elementsById_wellFormed searchable_of_mem_searched hf]
  rfl

/-- **The edit of a well-formed document is one of its tree.** -/
theorem setAttribute_forest {f : Forest} (hf : f.WellFormed) (id name value : String) :
    setAttribute f.chars id name value = .ok (attributeSet id name value f).chars := by
  have hplan := setAttributePlan_forest hf id name value
  have hplaced := (sound_setAttributePlan f.chars id name value).placed _ hplan
  unfold setAttribute
  rw [hplan]
  exact Splice.applyAll_of_carries (carries_retagged f 0) hplaced.rising

/-! ## When the attribute reads back -/

/-- The edit does not change which elements have the id. -/
theorem answers_of_becomes {doc doc' : List Char} {splices : List Splice} {id name value : String}
    (hid : name ≠ "id") {e e' : Element}
    (h : e.Becomes doc doc' splices
      (if e.answers nodeNames id then e.attrs.set name value else e.attrs) e') :
    e'.answers nodeNames id = e.answers nodeNames id := by
  have hget : e'.attrs.get? "id" = e.attrs.get? "id" := by
    rw [h.attrs]
    split
    · exact get?_set_of_ne e.attrs value hid.symm
    · rfl
  unfold Element.answers
  rw [h.name, hget]

theorem edited_of_becomes {doc doc' : List Char} {splices : List Splice} {id name value : String}
    (hid : name ≠ "id") {all all' : List Element}
    (h : List.Forall₂ (fun e e' => e.Becomes doc doc' splices
      (if e.answers nodeNames id then e.attrs.set name value else e.attrs) e') all all') :
    List.Forall₂ (fun e e' => e'.name = e.name ∧ e'.attrs = e.attrs.set name value ∧
        e'.attrs.get? name = some value)
      (all.filter (·.answers nodeNames id)) (all'.filter (·.answers nodeNames id)) := by
  have hsame := List.rel_filter (p := (·.answers nodeNames id)) (q := (·.answers nodeNames id))
    (fun e e' hbecomes => by simp only [answers_of_becomes hid hbecomes]) h
  have hanswers : ∀ e ∈ all.filter (·.answers nodeNames id), e.answers nodeNames id = true :=
    fun e he => (List.mem_filter.mp he).2
  refine ((List.forall₂_and_left _ _).mpr ⟨hanswers, hsame⟩).imp fun e e' ⟨he, hbecomes⟩ => ?_
  have hattrs := hbecomes.attrs
  rw [if_pos he] at hattrs
  refine ⟨hbecomes.name, hattrs, ?_⟩
  rw [hattrs]
  exact get?_set e.attrs name value

theorem readsBack_iff {f : Forest} (hf : f.WellFormed) (id : String) {name : String}
    (hname : AttributeName name) (hid : name ≠ "id") (value : String) :
    ReadsBack f.chars (attributeSet id name value f).chars id name value ↔
      (attributeSet id name value f).Closes (searchedNames nodeNames) [] := by
  have hiff := @walk_retagged_iff _ (isNode id) (fun attrs => attrs.set name value) tagName_of_mem_searched
    (attributeName_of_mem_set hname value) f hf
  constructor
  · intro h
    obtain ⟨splices, all, all', hplan, hwalk, hwalk', hall⟩ := h.reached
    rw [setAttributePlan_forest hf] at hplan
    rw [walk_wellFormed searchable_of_mem_searched hf] at hwalk
    obtain rfl := Except.ok.inj hplan
    obtain rfl := Except.ok.inj hwalk
    exact hiff.mp ⟨all', hwalk', hall⟩
  · intro hcloses
    obtain ⟨all', hwalk', hall⟩ := hiff.mpr hcloses
    have hwalk := walk_wellFormed searchable_of_mem_searched hf
    exact ⟨⟨_, _, elementsById_eq_ok.mpr ⟨_, hwalk, rfl⟩, elementsById_eq_ok.mpr ⟨_, hwalk', rfl⟩,
        edited_of_becomes hid hall⟩,
      ⟨_, _, all', setAttributePlan_forest hf id name value, hwalk, hwalk', hall⟩⟩

theorem plain_rendered {attrs : Attributes} (h : ∀ a ∈ attrs, '<' ∉ a.value.toList) (name : String)
    (gap : List Char) : (WrittenTag.rendered name attrs gap).Plain := by
  intro w hw
  obtain ⟨a, ha, rfl⟩ := List.mem_map.mp hw
  intro hmem
  obtain ⟨c, hc, hescape⟩ := List.mem_flatMap.mp hmem
  unfold Entity.escapeChar at hescape
  split at hescape
  · exact absurd hescape (by decide)
  · split at hescape
    · exact absurd hescape (by decide)
    · rw [List.mem_singleton] at hescape
      exact h a ha (hescape ▸ hc)

/-- With harmless values the new tree is well-formed, too. -/
theorem plain_attributeSet {id name value : String} {f : Forest} (hplain : f.AllTags WrittenTag.Plain)
    (h : Harmless id value f) : (attributeSet id name value f).AllTags WrittenTag.Plain := by
  obtain ⟨hvalue, htags⟩ := h
  have htag : ∀ (t : WrittenTag) (gap : List Char), t.Plain →
      ((t.chosen? (searchedNames nodeNames) (isNode id)).isSome →
        ∀ a ∈ t.meant, '<' ∉ a.value.toList) →
      (t.retagged (searchedNames nodeNames) (isNode id) (·.set name value) gap).Plain := by
    intro t gap ht hmeant
    rcases @retagged_cases (searchedNames nodeNames) (isNode id) (·.set name value) t gap with
      ⟨-, heq⟩ | ⟨tagName, -, -, hchosen, heq⟩
    · rw [heq]
      exact ht
    · rw [heq]
      refine plain_rendered (fun a ha => ?_) tagName gap
      rcases mem_set ha with rfl | ha
      · exact hvalue
      · exact hmeant (by rw [hchosen]; rfl) a ha
  unfold attributeSet
  induction f with
  | nil => trivial
  | text t rest ih => exact ih hplain htags
  | comment t rest ih => exact ih hplain htags
  | single tag gap rest ih => exact ⟨htag tag [' '] hplain.1 htags.1, ih hplain.2 htags.2⟩
  | paired tag children close rest ihc ih =>
    refine ⟨htag tag [] hplain.1 htags.1, ?_, ih hplain.2.2 htags.2.2⟩
    split
    · exact ihc hplain.2.1 htags.2.1
    · exact hplain.2.1

/-- **An attribute that is set in a well-formed document reads back exactly if, in the new text, each close
tag is found** where it is written. So it does if no value that is written has a `<`. -/
theorem setAttribute_reads_back {f : Forest} (hf : f.WellFormed) (id : String) {name : String}
    (hname : AttributeName name) (hid : name ≠ "id") (value : String) :
    setAttribute f.chars id name value = .ok (attributeSet id name value f).chars ∧
      (ReadsBack f.chars (attributeSet id name value f).chars id name value ↔
        (attributeSet id name value f).Closes (searchedNames nodeNames) []) ∧
      (Harmless id value f →
        ReadsBack f.chars (attributeSet id name value f).chars id name value) := by
  have hiff := readsBack_iff hf id hname hid value
  refine ⟨setAttribute_forest hf id name value, hiff, fun hharmless => hiff.mpr ?_⟩
  refine closes_of_plain searchable_of_mem_searched ?_ (plain_attributeSet hf.plain hharmless) []
  exact nested_retagged tagName_of_mem_searched (attributeName_of_mem_set hname value) hf.nested

/-! ## A widget in a group -/

/-- A group around a widget with some tag. -/
def groupAround (tag : WrittenTag) : Forest :=
  .paired ⟨"group".toList, [⟨[' '], "id".toList, [], [], ['g']⟩], []⟩
    (.paired tag .nil ⟨"kpi".toList, []⟩ .nil) ⟨"group".toList, []⟩ .nil

/-- The tag of a widget. -/
def plainWidget : WrittenTag :=
  ⟨"kpi".toList, [⟨[' '], "id".toList, [], [], ['k']⟩], []⟩

theorem meant_plainWidget : plainWidget.meant = [⟨"id", "k"⟩] := by
  have hvalue : Entity.decode ['k'] = ['k'] := by
    simp [Entity.decode_cons, Entity.decode_nil, Entity.read?, Entity.names, stripPrefix?]
  simp only [plainWidget, WrittenTag.meant, List.map_cons, List.map_nil, WrittenAttribute.meant, hvalue]
  decide

theorem chosen?_plainWidget :
    plainWidget.chosen? (searchedNames nodeNames) (isNode "k") = some "kpi" := by
  rw [@chosen?_of_nameIn? _ _ _ "kpi" (by decide), meant_plainWidget]
  decide

theorem meant_group :
    WrittenTag.meant ⟨"group".toList, [⟨[' '], "id".toList, [], [], ['g']⟩], []⟩ = [⟨"id", "g"⟩] := by
  have hvalue : Entity.decode ['g'] = ['g'] := by
    simp [Entity.decode_cons, Entity.decode_nil, Entity.read?, Entity.names, stripPrefix?]
  simp only [WrittenTag.meant, List.map_cons, List.map_nil, WrittenAttribute.meant, hvalue]
  decide

theorem chosen?_group :
    WrittenTag.chosen? (searchedNames nodeNames) (isNode "k")
      ⟨"group".toList, [⟨[' '], "id".toList, [], [], ['g']⟩], []⟩ = none := by
  rw [@chosen?_of_nameIn? _ _ _ "group" (by decide), meant_group]
  decide

theorem attributeSet_groupAround (value : String) :
    attributeSet "k" "title" value (groupAround plainWidget) =
      groupAround (WrittenTag.rendered "kpi" [⟨"id", "k"⟩, ⟨"title", value⟩] []) := by
  have hgroup : WrittenTag.admits (searchedNames nodeNames)
      ⟨"group".toList, [⟨[' '], "id".toList, [], [], ['g']⟩], []⟩ = true := by
    decide
  unfold attributeSet groupAround
  simp only [Forest.retagged, WrittenTag.retagged, chosen?_group, chosen?_plainWidget, meant_plainWidget,
    hgroup, if_true, ite_self]
  rfl

theorem harmless_groupAround {value : String} (h : '<' ∉ value.toList) :
    Harmless "k" value (groupAround plainWidget) := by
  refine ⟨h, ?_, ⟨?_, trivial, trivial⟩, trivial⟩
  · intro hsome
    rw [chosen?_group] at hsome
    exact absurd hsome (by simp)
  · intro _
    rw [meant_plainWidget]
    decide

/-- Quotes and an ampersand in a value read back. -/
theorem setAttribute_reads_back_quotes :
    (groupAround plainWidget).chars = "<group id=\"g\"><kpi id=\"k\"></kpi></group>".toList ∧
      (groupAround plainWidget).WellFormed ∧ AttributeName "title" ∧ "title" ≠ "id" ∧
        setAttribute (groupAround plainWidget).chars "k" "title" "\"A\" & B" =
          .ok "<group id=\"g\"><kpi id=\"k\" title=\"&quot;A&quot; &amp; B\"></kpi></group>".toList ∧
        ReadsBack (groupAround plainWidget).chars
          "<group id=\"g\"><kpi id=\"k\" title=\"&quot;A&quot; &amp; B\"></kpi></group>".toList
          "k" "title" "\"A\" & B" := by
  have hwell : (groupAround plainWidget).WellFormed := by decide
  have hname : AttributeName "title" := by decide
  obtain ⟨hset, -, hback⟩ := setAttribute_reads_back hwell "k" hname (by decide) "\"A\" & B"
  have hreads := hback (harmless_groupAround (by decide))
  rw [attributeSet_groupAround] at hset hreads
  exact ⟨by decide, hwell, hname, by decide, hset, hreads⟩

set_option maxRecDepth 4000 in
/-- The search for the close tag of the group stops inside the quotes. -/
theorem elementsById_markup_value :
    elementsById "<group id=\"g\"><kpi id=\"k\" title=\"</group>\"></kpi></group>".toList nodeNames "k" =
      .error (.unterminated "kpi" 14) := by
  have hnames : searchedNames nodeNames =
      ["dashboard", "row", "group", "column", "section", "kpi", "chart", "widget"] := by
    decide
  have hfind : find "<group id=\"g\"><kpi id=\"k\" title=\"</group>\"></kpi></group>".toList ⟨0, 57⟩
      (searchedNames nodeNames) =
        .ok [⟨"group", 0, 14, [⟨"id", "g"⟩], .paired ⟨14, 33⟩ 41⟩] := by
    rw [hnames]
    simp [find, Span.text, Span.cut?, splitBytes?, Option.bind, scan_cons, scan_nil, findClose_cons, comment?,
      opening?, closing?, named?, stripPrefix?, stripWord?, endsName, finish?, cutTag?, Option.filter_some,
      isTagBlank, OpenTag.ofBody, trimEnd, stripSuffix?, behindTag, cutAt?, dropEndWhile, List.dropWhile,
      isBlank, Attributes.read_cons, Attributes.read_nil, trimStart, Attribute.read?, List.takeWhile,
      Attribute.isNameChar, Attribute.assigned?, isPlainBlank, Attribute.value?, quoted?,
      Entity.decode_cons, Entity.decode_nil, Entity.read?, Entity.names, Char.utf8Size, Except.map]
  have hinner : find "<group id=\"g\"><kpi id=\"k\" title=\"</group>\"></kpi></group>".toList ⟨14, 33⟩
      (searchedNames nodeNames) = .error (.unterminated "kpi" 14) := by
    rw [hnames]
    simp [find, Span.text, Span.cut?, splitBytes?, Option.bind, scan_cons, comment?, opening?, named?,
      stripPrefix?, stripWord?, endsName, finish?, cutTag?, Option.filter_some, isTagBlank, Char.utf8Size]
  have hsize : size "<group id=\"g\"><kpi id=\"k\" title=\"</group>\"></kpi></group>".toList = 57 := by
    decide
  have hwalk : walk "<group id=\"g\"><kpi id=\"k\" title=\"</group>\"></kpi></group>".toList
      (searchedNames nodeNames) ⟨14, 33⟩ = .error (.unterminated "kpi" 14) := by
    rw [walk_eq, hinner]
    rfl
  unfold elementsById findById
  rw [hsize, walk_eq, hfind]
  simp only [Except.bind]
  rw [exceptMapM_cons, walkFrom]
  have hentered : Element.entered? ⟨"group", 0, 14, [⟨"id", "g"⟩], .paired ⟨14, 33⟩ 41⟩ =
      some ⟨14, 33⟩ := by
    decide
  rw [hentered]
  simp only [hwalk]
  rfl

/-- **Markup in a value makes a document unreadable.** -/
theorem setAttribute_markup_value :
    (groupAround plainWidget).WellFormed ∧ AttributeName "title" ∧
      setAttribute "<group id=\"g\"><kpi id=\"k\"></kpi></group>".toList "k" "title" "</group>" =
        .ok "<group id=\"g\"><kpi id=\"k\" title=\"</group>\"></kpi></group>".toList ∧
      ¬ReadsBack "<group id=\"g\"><kpi id=\"k\"></kpi></group>".toList
        "<group id=\"g\"><kpi id=\"k\" title=\"</group>\"></kpi></group>".toList "k" "title" "</group>" := by
  have hwell : (groupAround plainWidget).WellFormed := by decide
  have hset := setAttribute_forest hwell "k" "title" "</group>"
  rw [attributeSet_groupAround] at hset
  refine ⟨hwell, by decide, hset, fun h => ?_⟩
  obtain ⟨found, found', -, hfound', -⟩ := h.edited
  rw [elementsById_markup_value] at hfound'
  exact absurd hfound' (by simp)

end DashboardMarkup.Edit
