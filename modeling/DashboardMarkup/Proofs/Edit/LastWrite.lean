import DashboardMarkup.Proofs.Edit.ReadBack

/-!
# The last value stays

An attribute that is set twice has the value that was set last, and the text is the one that the last edit alone would
have made. The first edit writes tags anew and moves all that is behind them, so that the second one has to find the
same elements in another text; it does so as long as no value brings a `<` into the text.

* `lt_mem_decode`, `wellFormed_of_values`: where no value says a `<`, none is written with one.
* `retagged_retagged`: of two edits of the tags of a tree the last one stays, if it does not look at what the first
  one changes.
* `setAttribute_last_wins`: so does the last of two values of an attribute, on the text itself.
-/

namespace DashboardMarkup

open Markup Text

/-! ## Values without a `<` -/

/-- A `<` is no part of a name of a character, and is decoded to itself. -/
theorem Entity.lt_mem_decode {text : List Char} (h : '<' ∈ text) : '<' ∈ decode text := by
  fun_induction decode text with
  | case1 => exact h
  | case2 c cs d rest hread ih =>
    obtain ⟨⟨name, e⟩, hmem, he⟩ := List.exists_of_findSome?_eq_some hread
    simp only [Option.map_eq_some_iff, Prod.mk.injEq, stripPrefix?_eq_some] at he
    obtain ⟨_, htext, -, rfl⟩ := he
    have hall : ∀ entry ∈ names, '<' ∉ entry.1 := by decide
    rw [htext] at h
    exact List.mem_cons_of_mem _ (ih ((List.mem_append.mp h).resolve_left (hall _ hmem)))
  | case3 c cs hread ih =>
    rcases List.mem_cons.mp h with rfl | h
    · exact List.mem_cons_self
    · exact List.mem_cons_of_mem _ (ih h)

namespace Markup

/-- No value of a tag says a `<`. -/
def WrittenTag.Unmarked (t : WrittenTag) : Prop :=
  ∀ a ∈ t.meant, '<' ∉ a.value.toList

theorem WrittenTag.Unmarked.plain {t : WrittenTag} (h : t.Unmarked) : t.Plain := by
  intro a ha hlt
  refine h a.meant (List.mem_map_of_mem ha) ?_
  unfold WrittenAttribute.meant
  rw [String.toList_ofList]
  exact Entity.lt_mem_decode hlt

/-- Where no value says a `<`, none is written with one. -/
theorem wellFormed_of_values {f : Forest} (hf : f.Nested) (hvalues : f.AllTags WrittenTag.Unmarked) :
    f.WellFormed :=
  ⟨hf, hvalues.imp fun _ => WrittenTag.Unmarked.plain⟩

/-! ## Two edits of the tags of a tree -/

section Twice

variable {names : List String} {chosen : String → Attributes → Bool} {first last : Attributes → Attributes}

/-- An edit of a tag does not change whether it is chosen. -/
theorem chosen?_retagged (hchosen : ∀ name attrs, chosen name (first attrs) = chosen name attrs) (t : WrittenTag)
    (gap : List Char) : (t.retagged names chosen first gap).chosen? names chosen = t.chosen? names chosen := by
  cases hin : t.nameIn? names with
  | none => rw [retagged_of_nameIn?_none hin]
  | some name =>
    have hin' : (t.retagged names chosen first gap).nameIn? names = some name := by
      rw [nameIn?_retagged, hin]
    have hsame : chosen name (t.retagged names chosen first gap).meant = chosen name t.meant := by
      rw [meant_retagged hin]
      split
      · exact hchosen name t.meant
      · rfl
    rw [chosen?_of_nameIn? hin', chosen?_of_nameIn? hin, hsame]

/-- Of two edits of a tag the last one stays. -/
theorem retagged_retagged_tag (hchosen : ∀ name attrs, chosen name (first attrs) = chosen name attrs)
    (hlast : ∀ attrs, last (first attrs) = last attrs) (t : WrittenTag) (gap : List Char) :
    (t.retagged names chosen first gap).retagged names chosen last gap = t.retagged names chosen last gap := by
  have hsame := @chosen?_retagged names chosen first hchosen t gap
  rcases @retagged_cases names chosen first t gap with ⟨-, heq⟩ | ⟨name, -, -, hname, heq⟩
  · rw [heq]
  · rw [hname, heq] at hsame
    rw [heq]
    unfold WrittenTag.retagged
    rw [hsame, hname]
    simp only [meant_rendered, hlast]

/-- **Of two edits of the tags of a tree the last one stays**, if the first one changes nothing that the last one looks
at. -/
theorem retagged_retagged (hchosen : ∀ name attrs, chosen name (first attrs) = chosen name attrs)
    (hlast : ∀ attrs, last (first attrs) = last attrs) (f : Forest) :
    (f.retagged names chosen first).retagged names chosen last = f.retagged names chosen last := by
  induction f with
  | nil => rfl
  | text t rest ih => rw [Forest.retagged, Forest.retagged, Forest.retagged, ih]
  | comment t rest ih => rw [Forest.retagged, Forest.retagged, Forest.retagged, ih]
  | single tag gap rest ih =>
    rw [Forest.retagged, Forest.retagged, Forest.retagged, ih, retagged_retagged_tag hchosen hlast,
      chosen?_retagged hchosen]
    cases (tag.chosen? names chosen).isSome <;> rfl
  | paired tag children close rest ihc ih =>
    rw [Forest.retagged, Forest.retagged, Forest.retagged, ih, retagged_retagged_tag hchosen hlast, admits_retagged]
    cases tag.admits names with
    | true => simp only [if_true, ihc]
    | false => rfl

end Twice

end Markup

namespace Edit

/-! ## Two values of an attribute -/

theorem isNode_set {id name key : String} (hid : key ≠ "id") (value : String) (attrs : Attributes) :
    isNode id name (attrs.set key value) = isNode id name attrs := by
  unfold isNode
  rw [get?_set_of_ne attrs value hid.symm]

/-- On the tree the last value stays. -/
theorem attributeSet_attributeSet (id : String) {name : String} (hid : name ≠ "id") (a b : String) (f : Forest) :
    attributeSet id name b (attributeSet id name a f) = attributeSet id name b f :=
  retagged_retagged (fun _ attrs => isNode_set hid a attrs) (fun attrs => set_set attrs name a b) f

/-- A value without a `<` leaves a tree well-formed whose values have none. -/
theorem wellFormed_attributeSet {f : Forest} (hf : f.Nested) (hvalues : f.AllTags WrittenTag.Unmarked) (id : String)
    {name value : String} (hname : AttributeName name) (hvalue : '<' ∉ value.toList) :
    (attributeSet id name value f).WellFormed := by
  have hharmless : Harmless id value f := by
    refine ⟨hvalue, @Forest.AllTags.imp _ _ ?_ f hvalues⟩
    exact fun t ht _ => ht
  exact ⟨nested_retagged tagName_of_mem_searched (attributeName_of_mem_set hname value) hf,
    plain_attributeSet (wellFormed_of_values hf hvalues).plain hharmless⟩

/-- **Of two values that are set the last one stays**: the text is the one that it alone would have made. -/
theorem setAttribute_last_wins {f : Forest} (hf : f.Nested) (hvalues : f.AllTags WrittenTag.Unmarked)
    (id : String) {name : String} (hname : AttributeName name) (hid : name ≠ "id") {a : String}
    (ha : '<' ∉ a.toList) (b : String) :
    ∃ once twice, setAttribute f.chars id name a = .ok once ∧ setAttribute once id name b = .ok twice ∧
      setAttribute f.chars id name b = .ok twice := by
  have hwell := wellFormed_of_values hf hvalues
  have honce := setAttribute_forest hwell id name a
  have htwice := setAttribute_forest (wellFormed_attributeSet hf hvalues id hname ha) id name b
  rw [attributeSet_attributeSet id hid] at htwice
  exact ⟨_, _, honce, htwice, setAttribute_forest hwell id name b⟩

theorem unmarked_groupAround : (groupAround plainWidget).AllTags WrittenTag.Unmarked := by
  refine ⟨?_, ⟨?_, trivial, trivial⟩, trivial⟩
  · unfold WrittenTag.Unmarked
    rw [meant_group]
    decide
  · unfold WrittenTag.Unmarked
    rw [meant_plainWidget]
    decide

/-- Quotes in the first value leave nothing behind. -/
theorem setAttribute_last_wins_quotes :
    (groupAround plainWidget).Nested ∧ (groupAround plainWidget).AllTags WrittenTag.Unmarked ∧
      AttributeName "title" ∧ "title" ≠ "id" ∧ '<' ∉ "\"A\"".toList ∧
        setAttribute (groupAround plainWidget).chars "k" "title" "\"A\"" =
          .ok "<group id=\"g\"><kpi id=\"k\" title=\"&quot;A&quot;\"></kpi></group>".toList ∧
        setAttribute "<group id=\"g\"><kpi id=\"k\" title=\"&quot;A&quot;\"></kpi></group>".toList "k" "title" "B" =
          .ok "<group id=\"g\"><kpi id=\"k\" title=\"B\"></kpi></group>".toList := by
  have hnested : (groupAround plainWidget).Nested := by decide
  have hname : AttributeName "title" := by decide
  have ha : '<' ∉ "\"A\"".toList := by decide
  have hwell : (groupAround plainWidget).WellFormed := by decide
  have honce := setAttribute_forest hwell "k" "title" "\"A\""
  have halone := setAttribute_forest hwell "k" "title" "B"
  rw [attributeSet_groupAround] at honce halone
  obtain ⟨once, twice, honce', htwice, halone'⟩ :=
    setAttribute_last_wins hnested unmarked_groupAround "k" hname (by decide) ha "B"
  obtain rfl := Except.ok.inj (honce'.symm.trans honce)
  obtain rfl := Except.ok.inj (halone'.symm.trans halone)
  exact ⟨hnested, unmarked_groupAround, hname, by decide, ha, honce, htwice⟩

end Edit

end DashboardMarkup
