import DashboardMarkup.Proofs.Document.Readable
import DashboardMarkup.Proofs.Edit.Board
import DashboardMarkup.Proofs.Edit.Exact
import DashboardMarkup.Proofs.Markup.Changes

/-!
# The tag of the root written anew

What is set on a dashboard is set in the tag of its root. The edit writes this tag from its attributes and leaves
all other text. Values are decoded before and escaped after, but for `<`: the new tag may hold a `<` in its values
where the old one held none. Nothing is lost by that, for the search for the root takes the tag as a whole and all
other searches begin behind it.

* `retitled`: a tree with the tag of its first element written anew.
* `setDashboard_retitled`: on a well-formed document the edit is such a change in the place of the root.
* `exists_read_retitled`, `exists_setDashboard`: the root has the new attributes then, and the document can be read.
-/

namespace DashboardMarkup.Edit

open Markup Template Text

/-- A tree with the tag of its first element written anew, under a name. -/
def retitled (name : String) (update : Attributes → Attributes) : Forest → Forest
  | .single tag _ rest => .single (.rendered name (update tag.meant) [' ']) [] rest
  | .paired tag children close rest => .paired (.rendered name (update tag.meant) []) children close rest
  | f => f

/-! ## Tags that are written -/

/-- A tag that is written makes no mark of a template. -/
theorem shut_renderOpen {name : String} (hname : TagName name) {attrs : Attributes} (h : Clean attrs)
    (selfClosing : Bool) : Shut (renderOpen name { attrs, selfClosing }) := by
  cases selfClosing with
  | false =>
    rw [renderOpen_paired]
    exact shut_rendered hname.2 h (by decide)
  | true =>
    rw [renderOpen_single]
    exact shut_rendered hname.2 h (by decide)

section

variable {name : String} {update : Attributes → Attributes} {start : Nat} {x : Forest} {e : Element}
  (h : x.Spells [name] start e)

include h

theorem name_of_spells : e.name = name := by
  cases h with
  | single gap hin => exact List.mem_singleton.mp (List.mem_of_find?_eq_some hin)
  | paired children close hin => exact List.mem_singleton.mp (List.mem_of_find?_eq_some hin)

/-- Its own tag is all that changes in the text of an element. -/
theorem exists_chars_retitled : ∃ tag rest, x.chars = tag ++ rest ∧ e.openEnd = start + size tag ∧
    (retitled name update x).chars =
      renderOpen name { attrs := update e.attrs, selfClosing := e.selfClosing } ++ rest := by
  have hgt : ('>').utf8Size = 1 := rfl
  have hslash : ('/').utf8Size = 1 := rfl
  cases h with
  | @single tag gap _ hin =>
    refine ⟨tag.text ++ ('/' :: gap ++ ['>']), [], by simp [Forest.chars], ?_, ?_⟩
    · simp only [size_append, size_cons, size_nil, hgt, hslash]
      omega
    · show _ = renderOpen name { attrs := update tag.meant, selfClosing := true } ++ []
      rw [renderOpen_single]
      simp [retitled, Forest.chars]
  | @paired tag children close _ hin =>
    refine ⟨tag.text ++ ['>'], children.chars ++ close.text, by simp [Forest.chars], ?_, ?_⟩
    · simp only [size_append, size_cons, size_nil, hgt]
      omega
    · show _ = renderOpen name { attrs := update tag.meant, selfClosing := false } ++ _
      rw [renderOpen_paired]
      simp [retitled, Forest.chars]

/-- A search for the name finds the element with its new attributes. -/
theorem nodes_retitled : (retitled name update x).nodes [name] = [⟨name, update e.attrs, inner x⟩] := by
  have hin : ∀ attrs gap, (WrittenTag.rendered name attrs gap).nameIn? [name] = some name := fun attrs gap => by
    simp [WrittenTag.nameIn?, WrittenTag.rendered]
  cases h with
  | single gap _ => simp [retitled, Forest.nodes, hin, meant_rendered, inner]
  | paired children close _ => simp [retitled, Forest.nodes, hin, meant_rendered, inner]

/-- The element is nested as before. -/
theorem nested_retitled (hname : TagName name) (hx : x.Nested) (hattrs : ∀ a ∈ update e.attrs, AttributeName a.name) :
    (retitled name update x).Nested := by
  have hreadable : ∀ gap : List Char, (∀ c ∈ gap, isTagBlank c = true) →
      (WrittenTag.rendered name (update e.attrs) gap).Readable :=
    fun gap hgap => readable_rendered hname.1 hname.2 hattrs hgap
  cases h with
  | single gap hin => exact ⟨hreadable [' '] (by decide), by simp, trivial⟩
  | paired children close hin =>
    obtain ⟨-, hclose, hsame, hchildren, -⟩ := hx
    obtain rfl := List.mem_singleton.mp (List.mem_of_find?_eq_some hin)
    have hlower := (searchable_of_nameIn? (List.forall_mem_singleton.mpr hname.searchable) hin).2
    exact ⟨hreadable [] (by simp), hclose, hsame.trans hlower, hchildren, trivial⟩

/-- The tags of other names are as before. -/
theorem others_retitled (hx : x.AllTags WrittenTag.Plain) :
    (retitled name update x).AllTags fun t => t.nameIn? [name] = none → t.Plain := by
  have hown : ∀ attrs gap, (WrittenTag.rendered name attrs gap).nameIn? [name] = none →
      (WrittenTag.rendered name attrs gap).Plain := fun attrs gap hnone => by
    simp [WrittenTag.nameIn?, WrittenTag.rendered] at hnone
  cases h with
  | single gap hin => exact ⟨hown _ _, trivial⟩
  | paired children close hin => exact ⟨hown _ _, hx.2.1.others [name], trivial⟩

/-- What the tag of an element says can be written, and holds no marks if its text does not. -/
theorem attrs_of_spells (hx : x.Nested) (huntagged : x.AllTags fun tag => Untagged tag.text) :
    (∀ a ∈ e.attrs, AttributeName a.name) ∧ Clean e.attrs := by
  cases h with
  | single gap hin => exact ⟨attributeName_of_readable hx.1, untagged_meant huntagged.1⟩
  | paired children close hin => exact ⟨attributeName_of_readable hx.1, untagged_meant huntagged.1⟩

end

/-! ## The root -/

/-- A change whose name and value can be written. -/
def WritableChange : Attributes.Change → Prop
  | .set name value => AttributeName name ∧ Untagged name.toList ∧ Untagged value.toList
  | .drop _ => True

theorem tagName_dashboard : TagName "dashboard" := by
  decide

/-- The plan of the edit. -/
theorem setDashboard_of_root {doc : List Char} {e : Element} (h : rootElement doc = .ok (some e))
    (change : DashboardChange) :
    setDashboard doc change = Splice.carryOut doc (.ok [retag e change.changes]) := by
  unfold setDashboard setDashboardPlan
  rw [h]
  rfl

section

variable {c : Context} {x : Forest} {e : Element} {update : Attributes → Attributes}
  (h : x.Spells ["dashboard"] (size c.before) e)

include h

/-- In a document, too, the tag is all that changes. -/
theorem exists_text_retitled : ∃ tag rest, (c.fill x).chars = c.before ++ (tag ++ rest) ∧
    e.openEnd = size c.before + size tag ∧ (c.fill (retitled "dashboard" update x)).chars =
      c.before ++ (renderOpen "dashboard" { attrs := update e.attrs, selfClosing := e.selfClosing } ++ rest) := by
  obtain ⟨tag, rest, hold, hopenEnd, hnew⟩ := @exists_chars_retitled _ update _ _ _ h
  refine ⟨tag, rest ++ c.behind, ?_, hopenEnd, ?_⟩
  · rw [Context.chars_fill, hold, List.append_assoc]
  · rw [Context.chars_fill, hnew, List.append_assoc]

/-- The edit writes the tag of the root anew. -/
theorem setDashboard_retitled (hroot : rootElement (c.fill x).chars = .ok (some e)) (change : DashboardChange) :
    setDashboard (c.fill x).chars change =
      .ok (c.fill (retitled "dashboard" (·.applyAll change.changes) x)).chars := by
  obtain ⟨tag, rest, hold, hopenEnd, hnew⟩ := @exists_text_retitled c x e (·.applyAll change.changes) h
  have hstart : e.start = size c.before := congrArg Span.start h.span
  rw [setDashboard_of_root hroot, retag, name_of_spells h, hstart, hopenEnd, hold, hnew]
  exact Splice.carryOut_single _ _ _ _

/-- No mark of a template is made. -/
theorem untagged_retitled (huntagged : Untagged (c.fill x).chars) (hclean : Clean (update e.attrs)) :
    Untagged (c.fill (retitled "dashboard" update x)).chars := by
  obtain ⟨tag, rest, hold, -, hnew⟩ := @exists_text_retitled c x e update h
  rw [hold] at huntagged
  rw [hnew]
  obtain ⟨hbefore, hbehind, -⟩ := untagged_append.mp huntagged
  exact (shut_renderOpen tagName_dashboard hclean _).between hbefore (untagged_append.mp hbehind).2.1

/-- The document begins as before. -/
theorem isMarkup_retitled (hmarkup : Dashboard.isMarkup (c.fill x).chars = true) :
    Dashboard.isMarkup (c.fill (retitled "dashboard" update x)).chars = true := by
  obtain ⟨tag, rest, -, -, hnew⟩ := @exists_text_retitled c x e update h
  obtain ⟨s, hs⟩ := exists_chars h
  rw [Context.chars_fill, hs] at hmarkup
  rw [hnew]
  exact isMarkup_congr hmarkup

/-- **The document is read with the new attributes**, whatever these are: the search for the root takes its tag as a
whole, and all else stands behind it. -/
theorem exists_read_retitled (hf : (c.fill x).WellFormed) (hfirst : c.First "dashboard")
    (hattrs : ∀ a ∈ update e.attrs, AttributeName a.name) {doc' : List Char}
    (hdoc' : (c.fill (retitled "dashboard" update x)).chars = doc') :
    ∃ e' d notes, rootElement doc' = .ok (some e') ∧ e'.attrs = update e.attrs ∧
      Root.find doc' = .ok ⟨update e.attrs, e'.start, e'.content⟩ ∧
      Dashboard.readDocument doc' = .ok (d, notes) := by
  subst hdoc'
  have hx := (Context.wellFormed_fill hf).1
  have hnested := (Context.nested_fill hf.nested).2 _ (nested_retitled h tagName_dashboard hx.nested hattrs)
  have hothers := (Context.allTags_fill (hf.plain.others ["dashboard"])).2 (retitled "dashboard" update x)
    (others_retitled h hx.plain)
  have hfind := find_of_closes (show ∀ name ∈ ["dashboard"], Searchable name by decide) hnested hothers
    (closes_of_others (by decide) hnested hothers []) [] []
  simp only [List.nil_append, List.append_nil, size_nil, Nat.zero_add] at hfind
  have hhead : ((c.fill (retitled "dashboard" update x)).nodes ["dashboard"]).head? =
      some ⟨"dashboard", update e.attrs, inner x⟩ := by
    rw [hfirst.nodes_fill, nodes_retitled h]
    rfl
  obtain ⟨e', hshown, hroot, hfound⟩ := exists_root_of_find hfind hhead
  have hinner : (inner x).WellFormed := by
    have hmem : ⟨e.name, e.attrs, inner x⟩ ∈ x.nodes ["dashboard"] := by
      rw [nodes_of_sameIn h (by rw [name_of_spells h]; decide)]
      exact List.mem_singleton_self _
    exact wellFormed_of_mem_nodes hx hmem
  obtain ⟨d, notes, hread⟩ := Dashboard.exists_gives_of_root hfound hshown hinner
  exact ⟨e', d, notes, hroot, hshown.attrs, hfound, hread⟩

end

/-- **What is set on a dashboard is set in the tag of its root.** In a well-formed document that begins with a tag
the root has the changed attributes then; and the document is read, whatever they are. -/
theorem exists_setDashboard {f : Forest} (hf : f.WellFormed) (huntagged : Untagged f.chars)
    (hmarkup : Dashboard.isMarkup f.chars = true) {e : Element} (hroot : rootElement f.chars = .ok (some e))
    (change : DashboardChange) (hchange : ∀ c ∈ change.changes, WritableChange c) :
    ∃ doc' e' d notes, setDashboard f.chars change = .ok doc' ∧
      rootElement doc' = .ok (some e') ∧ e'.attrs = e.attrs.applyAll change.changes ∧
      Root.find doc' = .ok ⟨e.attrs.applyAll change.changes, e'.start, e'.content⟩ ∧
      Dashboard.readDocument doc' = .ok (d, notes) ∧
      Dashboard.parse doc' = { d with problems := notes.map (Problem.ofNote doc') } := by
  obtain ⟨c, x, rfl, hspells, hfirst⟩ := exists_root_place hf hroot
  obtain ⟨hnames, hclean⟩ := attrs_of_spells hspells (Context.wellFormed_fill hf).1.nested
    (Context.allTags_fill (allTags_untagged huntagged)).1
  have hattrs : ∀ a ∈ e.attrs.applyAll change.changes, AttributeName a.name ∧
      Untagged a.name.toList ∧ Untagged a.value.toList := fun a ha => by
    rcases Attributes.mem_applyAll ha with ha | ha
    · exact ⟨hnames a ha, hclean a ha⟩
    · exact hchange _ ha
  obtain ⟨e', d, notes, hroot', hattrs', hfind, hread⟩ :=
    @exists_read_retitled c x e (·.applyAll change.changes) hspells hf hfirst (fun a ha => (hattrs a ha).1) _ rfl
  refine ⟨_, e', d, notes, setDashboard_retitled hspells hroot change, hroot', hattrs', hfind, hread, ?_⟩
  unfold Dashboard.parse Dashboard.read Dashboard.ofDocument
  rw [resolve_untagged (untagged_retitled hspells huntagged fun a ha => (hattrs a ha).2),
    if_pos (isMarkup_retitled hspells hmarkup), hread]

end DashboardMarkup.Edit
