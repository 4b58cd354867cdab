import DashboardMarkup.Proofs.Document.References
import Mathlib.Data.List.Nodup

/-!
# Ids of rows

A row without an id of its own is numbered by its place among all outermost rows, and a section by its place among
all outermost sections, whether they make a row or not. Nothing keeps another one from being given just this text
as its id. Rows are kept by id, where a later one takes the place of an earlier one.

* `nodup_idAt_iff`: when ids are distinct.
* `RowsById`: what is kept of the rows of some elements, whatever their ids.
* `Dashboard.rows_by_id`: the rows of a layout and those of sections.
-/

namespace DashboardMarkup

open Markup Reading

/-! ## Parts by key -/

namespace Keyed

variable {α β : Type} (key : β → String) (value : β → α)

/-- The values of some parts by their keys, set one after another. -/
def collected (parts : List β) (entries : Keyed α) : Keyed α :=
  parts.foldl (fun entries p => entries.insert (key p) (value p)) entries

/-- A key that is not set anew keeps its value. -/
theorem find?_collected_of_not_mem {parts : List β} {k : String} (h : ∀ p ∈ parts, key p ≠ k)
    (entries : Keyed α) : (collected key value parts entries).find? k = entries.find? k := by
  induction parts generalizing entries with
  | nil => rfl
  | cons p parts ih =>
    obtain ⟨hp, hparts⟩ := List.forall_mem_cons.mp h
    exact (ih hparts _).trans (find?_insert_of_ne entries (value p) hp.symm)

/-- **Of the parts with a key the last one counts.** -/
theorem find?_collected {before after : List β} {p : β} (h : ∀ q ∈ after, key q ≠ key p) (entries : Keyed α) :
    (collected key value (before ++ p :: after) entries).find? (key p) = some (value p) := by
  unfold collected
  rw [List.foldl_append, List.foldl_cons, ← collected, find?_collected_of_not_mem key value h]
  exact find?_insert_self _ (key p) (value p)

theorem nodup_keys_insert {entries : Keyed α} (h : entries.keys.Nodup) (k : String) (a : α) :
    (entries.insert k a).keys.Nodup := by
  rw [keys_insert]
  split
  · exact h
  · next hnew =>
    refine List.Nodup.append h (List.nodup_singleton k) ?_
    rwa [List.disjoint_singleton]

/-- Keys are distinct, however often they are set. -/
theorem nodup_keys_collected (parts : List β) {entries : Keyed α} (h : entries.keys.Nodup) :
    (collected key value parts entries).keys.Nodup := by
  induction parts generalizing entries with
  | nil => exact h
  | cons p parts ih => exact ih (nodup_keys_insert h (key p) (value p))

/-- A new key comes last. -/
theorem insert_of_not_mem {entries : Keyed α} {k : String} (h : k ∉ entries.keys) (a : α) :
    entries.insert k a = entries ++ [(k, a)] := by
  induction entries with
  | nil => rfl
  | cons e entries ih =>
    obtain ⟨k', b⟩ := e
    have hhead : k' ≠ k := by
      rintro rfl
      exact h List.mem_cons_self
    rw [insert, if_neg hhead, ih fun hmem => h (List.mem_cons_of_mem k' hmem)]
    rfl

theorem collected_of_nodup {parts : List β} {entries : Keyed α} (h : (entries.keys ++ parts.map key).Nodup) :
    collected key value parts entries = entries ++ parts.map fun p => (key p, value p) := by
  induction parts generalizing entries with
  | nil => exact (List.append_nil _).symm
  | cons p parts ih =>
    rw [List.map_cons, ← List.singleton_append, ← List.append_assoc] at h
    have hnew : key p ∉ entries.keys := fun hmem =>
      (List.disjoint_of_nodup_append h.of_append_left) hmem (List.mem_singleton.mpr rfl)
    have hkeys : (entries.insert (key p) (value p)).keys = entries.keys ++ [key p] := by
      rw [keys_insert, if_neg hnew]
    have hrest := @ih (entries.insert (key p) (value p)) (by rw [hkeys]; exact h)
    rw [insert_of_not_mem hnew, List.append_assoc] at hrest
    rw [collected, List.foldl_cons, ← collected, insert_of_not_mem hnew]
    exact hrest

end Keyed

/-! ## Ids -/

/-- The id that an element is given. -/
def Markup.Element.ownId? (e : Element) : Option String :=
  e.attrs.text? "id"

/-- The id of an element in its place: its own one, or else the number of the place behind a stem. -/
def idAt (stem : String) (p : Element × Nat) : String :=
  p.1.ownId?.getD (stem ++ toString p.2)

/-- **Ids that are kept apart**: those that are given are distinct, and none of them is the number of an element
without one. -/
structure Apart (stem : String) (places : List (Element × Nat)) : Prop where
  given : (places.filterMap fun p => p.1.ownId?).Nodup
  numbers : ∀ p ∈ places, p.1.ownId? = none → ∀ q ∈ places, q.1.ownId? ≠ some (stem ++ toString p.2)

theorem toString_inj {m n : Nat} : toString m = toString n ↔ m = n := by
  refine ⟨fun h => ?_, congrArg toString⟩
  have hdigits : Nat.toDigits 10 m = Nat.toDigits 10 n := by
    rw [← toList_toString, ← toList_toString, h]
  rw [← Whole.value_toDigits m, hdigits, Whole.value_toDigits]

theorem append_toString_inj {stem : String} {m n : Nat} : stem ++ toString m = stem ++ toString n ↔ m = n :=
  (String.append_right_inj stem).trans toString_inj

/-- **A number is the id of another element exactly if that one is given it.** -/
theorem idAt_eq_iff {stem : String} {p q : Element × Nat} (hp : p.1.ownId? = none) (hne : q.2 ≠ p.2) :
    idAt stem q = idAt stem p ↔ q.1.ownId? = some (stem ++ toString p.2) := by
  unfold idAt
  rw [hp, Option.getD_none]
  cases hq : q.1.ownId? with
  | none =>
    rw [Option.getD_none, append_toString_inj]
    exact iff_of_false hne (by simp)
  | some id => rw [Option.getD_some, Option.some.injEq]

variable {stem : String} {places : List (Element × Nat)}

/-- **Ids are distinct** exactly if they are kept apart. -/
theorem nodup_idAt_iff (hplaces : places.Pairwise fun p q => p.2 ≠ q.2) :
    (places.map (idAt stem)).Nodup ↔ Apart stem places := by
  have hown : ∀ {p : Element × Nat} {id : String}, p.1.ownId? = some id → idAt stem p = id := by
    intro p id h
    rw [idAt, h, Option.getD_some]
  constructor
  · intro h
    refine ⟨?_, fun p hp hnone q hq hgiven => ?_⟩
    · refine List.pairwise_filterMap.mpr ((List.pairwise_map.mp h).imp ?_)
      rintro p q hne a ha b hb rfl
      exact hne ((hown ha).trans (hown hb).symm)
    · have hsame : idAt stem p = idAt stem q := by
        rw [hown hgiven, idAt, hnone, Option.getD_none]
      rw [List.inj_on_of_nodup_map h hp hq hsame, hgiven] at hnone
      exact absurd hnone (by simp)
  · rintro ⟨hgiven, hnumbers⟩
    have hboth := hplaces.and (List.pairwise_filterMap.mp hgiven)
    refine List.pairwise_map.mpr (hboth.imp_of_mem ?_)
    intro p q hp hq ⟨hplace, hids⟩ hsame
    cases hpid : p.1.ownId? with
    | none => exact hnumbers p hp hpid q hq ((idAt_eq_iff hpid hplace.symm).mp hsame.symm)
    | some a =>
      cases hqid : q.1.ownId? with
      | none => exact hnumbers q hq hqid p hp ((idAt_eq_iff hqid hplace).mp hsame)
      | some b => exact hids a hpid b hqid ((hown hpid).symm.trans (hsame.trans (hown hqid)))

/-- **The rows of some elements by their ids**: where a number is the id of another element, that one is given it;
each element has a row of its own exactly if the ids are kept apart, and then they stand in order; in any case the
last row with an id is kept. -/
structure RowsById (stem : String) (places : List (Element × Nat)) (IsRow : Element → Row → Prop)
    (entries : Keyed Row) : Prop where
  number : ∀ p ∈ places, p.1.ownId? = none → ∀ q ∈ places, q.2 ≠ p.2 →
    (idAt stem q = idAt stem p ↔ q.1.ownId? = some (stem ++ toString p.2))
  each : List.Forall₂ (fun p (entry : String × Row) => entry.1 = idAt stem p ∧ IsRow p.1 entry.2) places entries ↔
    Apart stem places
  last : ∀ before p after, places = before ++ p :: after → (∀ q ∈ after, idAt stem q ≠ idAt stem p) →
    ∃ row, entries.find? (idAt stem p) = some row ∧ IsRow p.1 row

/-- A part that an element makes in its place. -/
def PartOf (stem : String) (IsRow : Element → Row → Prop) (p : Element × Nat) (part : RowPart) : Prop :=
  part.id = idAt stem p ∧ IsRow p.1 part.row

theorem map_id_of_partOf {IsRow : Element → Row → Prop} {parts : List RowPart}
    (h : List.Forall₂ (PartOf stem IsRow) places parts) : parts.map RowPart.id = places.map (idAt stem) := by
  induction h with
  | nil => rfl
  | cons hpart _ ih => rw [List.map_cons, List.map_cons, ih, hpart.1]

/-- Of parts that elements make one by one, the one in the middle. -/
theorem exists_part_between {R : Element × Nat → RowPart → Prop} {before after : List (Element × Nat)}
    {p : Element × Nat} {parts : List RowPart} (h : List.Forall₂ R (before ++ p :: after) parts) :
    ∃ first part rest, parts = first ++ part :: rest ∧ R p part ∧ List.Forall₂ R after rest := by
  induction before generalizing parts with
  | nil =>
    obtain ⟨part, rest, hpart, hrest, rfl⟩ := List.forall₂_cons_left_iff.mp h
    exact ⟨[], part, rest, rfl, hpart, hrest⟩
  | cons q before ih =>
    obtain ⟨other, parts, -, hparts, rfl⟩ := List.forall₂_cons_left_iff.mp h
    obtain ⟨first, part, rest, rfl, hpart, hrest⟩ := ih hparts
    exact ⟨other :: first, part, rest, rfl, hpart, hrest⟩

/-- **So are the rows of parts kept**, one for each element. -/
theorem rowsById_rowsOf {IsRow : Element → Row → Prop} {parts : List RowPart}
    (hplaces : places.Pairwise fun p q => p.2 ≠ q.2) (h : List.Forall₂ (PartOf stem IsRow) places parts) :
    RowsById stem places IsRow (rowsOf parts) := by
  have hrows : rowsOf parts = Keyed.collected RowPart.id RowPart.row parts [] := rfl
  have hids := map_id_of_partOf h
  refine ⟨fun p _ hnone q _ hne => idAt_eq_iff hnone hne, ?_, ?_⟩
  · rw [← nodup_idAt_iff hplaces, ← hids, hrows]
    constructor
    · intro heach
      have hkeys : (Keyed.collected RowPart.id RowPart.row parts []).keys = parts.map RowPart.id := by
        rw [hids]
        refine List.forall₂_eq_eq_eq ▸ ?_
        rw [Keyed.keys, List.forall₂_map_left_iff, List.forall₂_map_right_iff]
        exact heach.flip.imp fun _ _ hentry => hentry.1
      rw [← hkeys]
      exact Keyed.nodup_keys_collected _ _ parts List.nodup_nil
    · intro hnodup
      have hcollected : Keyed.collected RowPart.id RowPart.row parts [] = [] ++ parts.map fun p => (p.id, p.row) :=
        Keyed.collected_of_nodup _ _ hnodup
      rw [hcollected, List.nil_append, List.forall₂_map_right_iff]
      exact h
  · rintro before p after rfl hafter
    obtain ⟨first, part, rest, rfl, ⟨hid, hrow⟩, hrest⟩ := exists_part_between h
    have hnew : ∀ other ∈ rest, other.id ≠ part.id := fun other hother => by
      obtain ⟨q, hq, hpart⟩ := exists_of_mem_left hrest.flip hother
      rw [hpart.1, hid]
      exact hafter q hq
    rw [hrows, ← hid, Keyed.find?_collected RowPart.id RowPart.row hnew]
    exact ⟨part.row, rfl, hrow⟩

/-! ## What is read -/

theorem pairwise_zipIdx {α : Type} (as : List α) (first : Nat) :
    (as.zipIdx first).Pairwise fun p q => p.2 ≠ q.2 := by
  refine List.pairwise_map.mp ?_
  rw [List.zipIdx_map_snd]
  exact List.nodup_range'

/-! ### Rows -/

/-- The row that the attributes of an element give it in a layout by rows. -/
def Markup.Element.row (e : Element) : Row :=
  let at? (key : String) := (e.attrs.positive? key).getD 1
  Row.ofAttributes e.attrs ⟨at? "cols-d", at? "cols-t", at? "cols-m"⟩ (e.attrs.text? "title")

variable {doc : List Char} {e : Element} {place : Nat}

theorem readId_gives {id : String} (h : (RowPart.readId place e).Gives id) : id = idAt "row-" (e, place) := by
  unfold RowPart.readId at h
  unfold idAt Markup.Element.ownId?
  cases hid : e.attrs.text? "id" with
  | some own =>
    rw [hid] at h
    exact Widget.eq_of_gives_pure h
  | none =>
    rw [hid] at h
    obtain ⟨-, -, h⟩ := exists_of_bind h
    exact Widget.eq_of_gives_pure h

theorem readColumns_gives {id : String} {columns : Breakpoints Nat} (h : (RowPart.readColumns id e).Gives columns) :
    columns = e.row.columns := by
  unfold RowPart.readColumns at h
  dsimp only at h
  split at h
  · obtain ⟨-, -, h⟩ := exists_of_bind h
    exact Widget.eq_of_gives_pure h
  · exact Widget.eq_of_gives_pure h

theorem partOf_ofRow {part : RowPart} (h : (RowPart.ofRow doc place e).Gives part) :
    PartOf "row-" (fun e row => row = e.row) (e, place) part := by
  unfold RowPart.ofRow at h
  split at h
  · obtain ⟨id, hid, h⟩ := exists_of_bind h
    obtain ⟨columns, hcolumns, h⟩ := exists_of_bind h
    obtain ⟨found, -, h⟩ := exists_of_bind h
    obtain ⟨widgets, -, h⟩ := exists_of_bind h
    rw [Widget.eq_of_gives_pure h]
    refine ⟨readId_gives hid, ?_⟩
    rw [readColumns_gives hcolumns]
    rfl
  · obtain ⟨notes, h⟩ := h
    cases h

/-- The rows of a layout by rows. -/
theorem rowsById_readRows {body : Span} {placement : Placement} (h : (Placement.readRows doc body).Gives placement) :
    ∃ found entries, find doc body ["row"] = .ok found ∧ placement.layout = .rows entries ∧
      RowsById "row-" (found.zipIdx 1) (fun e row => row = e.row) entries := by
  obtain ⟨found, hfound, h⟩ := exists_of_bind h
  obtain ⟨parts, hparts, h⟩ := exists_of_bind h
  rw [Widget.eq_of_gives_pure h]
  exact ⟨found, rowsOf parts, hfound.eq_ok, rfl,
    rowsById_rowsOf (pairwise_zipIdx found 1) (hparts.forall₂.imp fun _ _ => partOf_ofRow)⟩

/-! ### Sections -/

/-- The kind of section that an element is, if it is of a known one. -/
def Markup.Element.sectionKind? (e : Element) : Option SectionKind :=
  (e.attrs.text? "data-type").bind SectionKind.ofText?

/-- The row that a section makes: its columns and gaps are those of its attributes, and its title is the heading
before its first article. -/
def IsSectionRow (doc : List Char) (e : Element) (row : Row) : Prop :=
  ∃ kind articles title, e.sectionKind? = some kind ∧ find doc e.content ["article"] = .ok articles ∧
    RowPart.sectionTitle doc ⟨e.content.start, (articles.head?.map Element.start).getD e.content.stop⟩ = .ok title ∧
    row = Row.ofAttributes e.attrs (e.attrs.breakpoints "cols" kind.columns) title

theorem partOf_ofKindedSection {kind : SectionKind} {part : RowPart} (hkind : e.sectionKind? = some kind)
    (h : (RowPart.ofKindedSection doc kind place e).Gives part) :
    PartOf "section-" (IsSectionRow doc) (e, place) part := by
  obtain ⟨articles, harticles, h⟩ := exists_of_bind h
  obtain ⟨title, htitle, h⟩ := exists_of_bind h
  obtain ⟨widgets, -, h⟩ := exists_of_bind h
  rw [Widget.eq_of_gives_pure h]
  exact ⟨rfl, kind, articles, title, hkind, harticles.eq_ok, htitle.eq_ok, rfl⟩

/-- A section makes a part exactly if it is of a known kind. -/
theorem exists_partOf_ofSection {part? : Option RowPart} (h : (RowPart.ofSection doc place e).Gives part?) :
    (∃ part, part? = some part ∧ e.sectionKind?.isSome = true ∧
      PartOf "section-" (IsSectionRow doc) (e, place) part) ∨
      (part? = none ∧ e.sectionKind?.isSome = false) := by
  unfold RowPart.ofSection at h
  split at h
  · split at h
    · next kind hkind =>
      obtain ⟨part, hpart, h⟩ := exists_of_bind h
      exact .inl ⟨part, Widget.eq_of_gives_pure h, Option.isSome_of_eq_some hkind,
        partOf_ofKindedSection hkind hpart⟩
    · next hkind => exact .inr ⟨Widget.eq_of_gives_pure h, congrArg Option.isSome hkind⟩
  · obtain ⟨notes, h⟩ := h
    cases h

/-- The places of the sections that make a row. -/
def sectionPlaces (found : List Element) : List (Element × Nat) :=
  (found.zipIdx 1).filter fun p => p.1.sectionKind?.isSome

/-- The sections of a known kind make one part each. -/
theorem forall₂_partOf {places : List (Element × Nat)} {made : List (Option RowPart)}
    (h : List.Forall₂ (fun p part? => (RowPart.ofSection doc p.2 p.1).Gives part?) places made) :
    List.Forall₂ (PartOf "section-" (IsSectionRow doc)) (places.filter fun p => p.1.sectionKind?.isSome)
      (made.filterMap fun part? => part?) := by
  induction h with
  | nil => exact .nil
  | @cons p part? places made hpart _ ih =>
    rcases exists_partOf_ofSection hpart with ⟨part, rfl, hkind, hpart⟩ | ⟨rfl, hkind⟩
    · rw [List.filter_cons, if_pos hkind]
      exact .cons hpart ih
    · rwa [List.filter_cons, hkind, if_neg Bool.false_ne_true, List.filterMap_cons_none rfl]

/-- The rows of sections. -/
theorem rowsById_ofSections {body : Span} {parts : List RowPart} (h : (RowPart.ofSections doc body).Gives parts) :
    ∃ found, find doc body ["section"] = .ok found ∧
      RowsById "section-" (sectionPlaces found) (IsSectionRow doc) (rowsOf parts) := by
  obtain ⟨found, hfound, h⟩ := exists_of_bind h
  obtain ⟨made, hmade, h⟩ := exists_of_bind h
  rw [Widget.eq_of_gives_pure h]
  exact ⟨found, hfound.eq_ok,
    rowsById_rowsOf ((pairwise_zipIdx found 1).sublist List.filter_sublist) (forall₂_partOf hmade.forall₂)⟩

namespace Dashboard

/-- A text that begins with a tag is read if nothing makes it unreadable. -/
theorem gives_of_readable {text : List Char} (hmarkup : isMarkup (Template.resolve text) = true)
    (hproblems : ∀ p ∈ (parse text).problems, p.cause.kind ≠ .unreadable) :
    ∃ d, (readDocument (Template.resolve text)).Gives d ∧ (parse text).canvas = d.canvas := by
  unfold parse read ofDocument at hproblems ⊢
  rw [if_pos hmarkup] at hproblems ⊢
  cases hread : readDocument (Template.resolve text) with
  | error fault =>
    rw [hread] at hproblems
    exact absurd rfl (hproblems _ (List.mem_singleton.mpr rfl))
  | ok made => exact ⟨made.1, ⟨made.2, rfl⟩, rfl⟩

/-- Only a layout by rows is one. -/
theorem perRow_of_gives {attrs : Attributes} {body : Span} {mode : LayoutMode} {placement : Placement}
    (h : (Placement.read doc attrs body mode).Gives placement) {entries : Keyed Row}
    (hentries : placement.layout = .rows entries) : (Placement.readRows doc body).Gives placement := by
  cases mode with
  | perRow => exact h
  | grid =>
    obtain ⟨found, -, h⟩ := exists_of_bind h
    obtain ⟨parts, -, h⟩ := exists_of_bind h
    obtain ⟨loose, -, h⟩ := exists_of_bind h
    rw [Widget.eq_of_gives_pure h] at hentries
    cases hentries
  | perColumn =>
    obtain ⟨found, -, h⟩ := exists_of_bind h
    split at h
    · obtain ⟨widgets, -, h⟩ := exists_of_bind h
      rw [Widget.eq_of_gives_pure h] at hentries
      cases hentries
    · obtain ⟨parts, -, h⟩ := exists_of_bind h
      rw [Widget.eq_of_gives_pure h] at hentries
      cases hentries

/-- **The rows of a dashboard by their ids**: those of its sections, and those of a layout by rows. -/
theorem rows_by_id (text : List Char) (hmarkup : isMarkup (Template.resolve text) = true)
    (hproblems : ∀ p ∈ (parse text).problems, p.cause.kind ≠ .unreadable) :
    let doc := Template.resolve text
    ∃ root sections, Root.find doc = .ok root ∧ find doc root.body ["section"] = .ok sections ∧
      RowsById "section-" (sectionPlaces sections) (IsSectionRow doc) (parse text).canvas.sections ∧
      ∀ entries, (parse text).canvas.layout = .rows entries →
        ∃ rows, find doc root.body ["row"] = .ok rows ∧
          RowsById "row-" (rows.zipIdx 1) (fun e row => row = e.row) entries := by
  obtain ⟨d, hd, hcanvas⟩ := gives_of_readable hmarkup hproblems
  obtain ⟨root, parts, mode, placement, hroot, hparts, hplacement, hmade⟩ := exists_readings hd
  obtain ⟨sections, hsections, hkept⟩ := rowsById_ofSections hparts
  rw [hcanvas, hmade.sections, hmade.layout]
  refine ⟨root, sections, hroot.eq_ok, hsections, hkept, fun entries hentries => ?_⟩
  obtain ⟨rows, found, hrows, hlayout, hbyId⟩ := rowsById_readRows (perRow_of_gives hplacement hentries)
  obtain rfl := Layout.rows.inj (hlayout.symm.trans hentries)
  exact ⟨rows, hrows, hbyId⟩

/-- A document with a row that has an id and one that has none, and with two sections likewise. -/
def mixedRows : List Char :=
  "<dashboard><row id=\"top\" cols-d=\"3\" cols-t=\"2\" cols-m=\"1\"/><row cols-d=\"4\" gap-x=\"8\"/>".toList ++
    "<section data-type=\"kpis\"><h2>Sales</h2></section><section id=\"s\" data-type=\"charts\"/></dashboard>".toList

theorem rows_by_id_mixed :
    isMarkup (Template.resolve mixedRows) = true ∧
      (∀ p ∈ (parse mixedRows).problems, p.cause.kind ≠ .unreadable) ∧
      ∃ root sections, Root.find (Template.resolve mixedRows) = .ok root ∧
        find (Template.resolve mixedRows) root.body ["section"] = .ok sections ∧
        RowsById "section-" (sectionPlaces sections) (IsSectionRow (Template.resolve mixedRows))
          (parse mixedRows).canvas.sections ∧
        (parse mixedRows).canvas.sections.keys = ["section-1", "s"] ∧
        (parse mixedRows).canvas.layout.rows?.map Keyed.keys = some ["top", "row-2"] := by
  have hread : isMarkup (Template.resolve mixedRows) = true ∧
      (∀ p ∈ (parse mixedRows).problems, p.cause.kind ≠ .unreadable) ∧
      (parse mixedRows).canvas.sections.keys = ["section-1", "s"] ∧
      (parse mixedRows).canvas.layout.rows?.map Keyed.keys = some ["top", "row-2"] := by
    decide +kernel
  obtain ⟨hmarkup, hproblems, hsectionKeys, hrowKeys⟩ := hread
  obtain ⟨root, sections, hroot, hsections, hbyId, -⟩ := rows_by_id mixedRows hmarkup hproblems
  exact ⟨hmarkup, hproblems, root, sections, hroot, hsections, hbyId, hsectionKeys, hrowKeys⟩

/-- **A number may be given as an id**: the second row takes the place of the first one, and the second section
that of the first one. What does not begin with a tag has no rows at all, although nothing makes it unreadable. -/
theorem rows_share_id :
    let text := "<dashboard><row id=\"row-2\" cols-d=\"3\" cols-t=\"2\" cols-m=\"1\" title=\"A\"/>".toList ++
      "<row cols-d=\"4\" cols-t=\"2\" cols-m=\"1\" title=\"B\"/><section data-type=\"kpis\" id=\"section-2\"/>".toList ++
      "<section data-type=\"charts\"/></dashboard>".toList
    (parse text).problems = [⟨.rowWithoutId "row-2", ⟨1, 72⟩⟩] ∧
      (parse text).canvas.layout.rows? =
        some [("row-2", { title := some "B", columns := ⟨4, 2, 1⟩ })] ∧
      (parse text).canvas.sections = [("section-2", { columns := ⟨2, 1, 1⟩ })] ∧
      (parse "x<row id=\"a\"/>".toList).problems = [⟨.notMarkup, Position.origin⟩] ∧
      (parse "x<row id=\"a\"/>".toList).canvas.layout.rows? = some [] := by
  decide +kernel

end Dashboard

end DashboardMarkup
