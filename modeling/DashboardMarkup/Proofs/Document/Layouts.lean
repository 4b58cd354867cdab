import DashboardMarkup.Proofs.Document.Parts

/-!
# Readings of layouts

Whatever the mode, the reading of a layout keeps the contract of `Reading.Sound`, and what it gives holds
together: a widget stands in a row of the layout or in none, and the children of a group are among the widgets.

* `has_rowsOf`: parts with the same key share its row, so that each part has one.
* `Placement.fits_of_mem_without`: the pieces of a grid outside its groups fit the document.
* `Placement.sound_read`: the layout of any mode.
-/

namespace DashboardMarkup

open Markup Reading

variable {doc : List Char}

/-- What a layout holds: widgets with solid ids, each in a row of the layout or in none, and groups with
children among them. -/
structure Placement.Holds (p : Placement) : Prop where
  ids : ∀ w ∈ p.widgets, Solid w.id
  rows : ∀ w ∈ p.widgets, ∀ row ∈ w.row, ∃ rows, p.layout.rows? = some rows ∧ rows.has row = true
  children : ∀ groups, p.layout.groups? = some groups → ∀ g ∈ groups, ∀ id ∈ g.children,
    id ∈ p.widgets.map Widget.id

/-- A layout whose widgets stand in no row. -/
theorem Placement.holds_of_row_none {p : Placement} (h : ∀ w ∈ p.widgets, Solid w.id ∧ w.row = none)
    (hchildren : ∀ groups, p.layout.groups? = some groups → ∀ g ∈ groups, ∀ id ∈ g.children,
      id ∈ p.widgets.map Widget.id) : p.Holds where
  ids w hw := (h w hw).1
  rows w hw row hrow := by
    rw [(h w hw).2] at hrow
    cases hrow
  children := hchildren

/-! ## Rows by key -/

theorem Keyed.has_insert {α : Type} (entries : Keyed α) (key other : String) (a : α) :
    (entries.insert key a).has other = (other == key || entries.has other) := by
  unfold Keyed.has
  by_cases h : other = key
  · rw [h, find?_insert_self, beq_self_eq_true, Option.isSome_some, Bool.true_or]
  · rw [find?_insert_of_ne entries a h, beq_eq_false_iff_ne.mpr h, Bool.false_or]

/-- **Each part has a row.** -/
theorem has_rowsOf {parts : List RowPart} {p : RowPart} (hp : p ∈ parts) : (rowsOf parts).has p.id = true := by
  have hfold : ∀ (parts : List RowPart) (rows : Keyed Row), p ∈ parts ∨ rows.has p.id = true →
      (parts.foldl (fun rows p => rows.insert p.id p.row) rows).has p.id = true := by
    intro parts
    induction parts with
    | nil => exact fun rows h => h.resolve_left List.not_mem_nil
    | cons q parts ih =>
      refine fun rows h => ih _ ?_
      rw [Keyed.has_insert, Bool.or_eq_true, beq_iff_eq]
      rcases h with h | h
      · rcases List.mem_cons.mp h with rfl | h
        · exact .inr (.inl rfl)
        · exact .inl h
      · exact .inr (.inr h)
  exact hfold parts [] (.inl hp)

/-! ## Modes -/

namespace Placement

theorem sound_readRows {body : Span} (h : body.Fits doc) : (readRows doc body).Sound doc Holds := by
  refine (sound_find h ["row"]).bind fun found hfound => ?_
  refine (sound_places (Q := RowPart.Owns) fun e he place => ?_).bind fun parts hparts => sound_pure ?_
  · exact RowPart.sound_ofRow place (hfound.sited e he) (List.mem_singleton.mp (hfound.name e he))
  · have hwidget : ∀ w ∈ parts.flatMap RowPart.widgets, ∃ p ∈ parts, Solid w.id ∧ w.row = some p.id :=
      fun w hw => by
        obtain ⟨p, hp, hw⟩ := List.mem_flatMap.mp hw
        exact ⟨p, hp, hparts p hp w hw⟩
    refine ⟨fun w hw => ?_, fun w hw row hrow => ?_, fun _ hgroups => by cases hgroups⟩
    · obtain ⟨p, hp, hsolid, -⟩ := hwidget w hw
      exact hsolid
    · obtain ⟨p, hp, -, hw⟩ := hwidget w hw
      rw [hw] at hrow
      obtain rfl := Option.some.inj hrow
      exact ⟨rowsOf parts, rfl, has_rowsOf hp⟩

/-- **The pieces between holes fit** if all ends of spans are between characters. -/
theorem fits_of_mem_without {holes : List Span}
    (hholes : ∀ hole ∈ holes, Text.Boundary doc hole.start ∧ Text.Boundary doc hole.stop) {range : Span}
    (hstart : Text.Boundary doc range.start) (hstop : Text.Boundary doc range.stop) :
    ∀ piece ∈ range.without holes, piece.Fits doc := by
  induction holes generalizing range with
  | nil =>
    unfold Span.without
    split
    · next hlt =>
      exact List.forall_mem_singleton.mpr (Span.fits_of_boundary hstart hstop (Nat.le_of_lt hlt))
    · exact fun piece hp => absurd hp List.not_mem_nil
  | cons hole holes ih =>
    obtain ⟨hhole, hmore⟩ := List.forall_mem_cons.mp hholes
    rcases Span.apart_or_meets range hole with hapart | ⟨hmeets, hbefore⟩
    · rw [Span.without_cons_of_apart hapart]
      exact ih hmore hstart hstop
    · rw [Span.without_cons_of_meets hmeets hbefore]
      refine List.forall_mem_append.mpr ⟨?_, ih hmore hhole.2 hstop⟩
      split
      · next hlt =>
        exact List.forall_mem_singleton.mpr (Span.fits_of_boundary hstart hhole.1 (Nat.le_of_lt hlt))
      · exact fun piece hp => absurd hp List.not_mem_nil

theorem sound_readLoose {span : Span} (h : span.Fits doc) :
    (readLoose doc span).Sound doc fun made => ∀ w ∈ made, Solid w.id ∧ w.row = none :=
  (sound_find h widgetNames).bind fun _ hfound =>
    Widget.sound_ofGridElements none fun e he => ⟨hfound.name e he, hfound.sited e he⟩

theorem sound_readGrid (attrs : Attributes) {body : Span} (h : body.Fits doc) :
    (readGrid doc attrs body).Sound doc Holds := by
  refine (sound_find h ["group"]).bind fun found hfound => ?_
  refine (Sound.mapM fun e he => GroupPart.sound_read _ (hfound.sited e he)
    (List.mem_singleton.mp (hfound.name e he))).bind fun parts hparts => ?_
  have hholes : ∀ hole ∈ found.map Element.span, Text.Boundary doc hole.start ∧ Text.Boundary doc hole.stop :=
    fun hole hhole => by
      obtain ⟨e, he, rfl⟩ := List.mem_map.mp hhole
      have hfits := (hfound.sited e he).fits_span
      exact ⟨hfits.boundary_start, hfits.boundary_stop⟩
  refine (Sound.mapM fun piece hpiece => sound_readLoose
    (fits_of_mem_without hholes h.boundary_start h.boundary_stop piece hpiece)).bind fun loose hloose => ?_
  refine sound_pure (holds_of_row_none (fun w hw => ?_) fun groups hgroups g hg id hid => ?_)
  · rcases List.mem_append.mp hw with hw | hw
    · obtain ⟨p, hp, hw⟩ := List.mem_flatMap.mp hw
      exact (hparts p hp).widgets w hw
    · obtain ⟨made, hmade, hw⟩ := List.mem_flatten.mp hw
      exact hloose made hmade w hw
  · obtain rfl := Option.some.inj hgroups
    obtain ⟨p, hp, hg⟩ := List.mem_filterMap.mp hg
    rw [(hparts p hp).children g hg] at hid
    obtain ⟨w, hw, rfl⟩ := List.mem_map.mp hid
    exact List.mem_map_of_mem (List.mem_append_left _ (List.mem_flatMap.mpr ⟨p, hp, hw⟩))

theorem sound_readColumns (attrs : Attributes) {body : Span} (h : body.Fits doc) :
    (readColumns doc attrs body).Sound doc Holds := by
  refine (sound_find h ["column"]).bind fun found hfound => ?_
  split
  · exact (sound_readLoose h).bind fun widgets hwidgets =>
      sound_pure (holds_of_row_none hwidgets fun _ hgroups => by cases hgroups)
  · refine (Sound.mapM fun e he => ColumnPart.sound_read (hfound.sited e he)
      (List.mem_singleton.mp (hfound.name e he))).bind fun made hmade => sound_pure ?_
    have hparts := forall_mem_kept hmade
    refine holds_of_row_none (fun w hw => ?_) fun _ hgroups => by cases hgroups
    obtain ⟨p, hp, hw⟩ := List.mem_flatMap.mp hw
    exact hparts p hp w hw

/-- **The layout of any mode.** -/
theorem sound_read (attrs : Attributes) {body : Span} (h : body.Fits doc) (mode : LayoutMode) :
    (Placement.read doc attrs body mode).Sound doc Holds := by
  cases mode with
  | perRow => exact sound_readRows h
  | grid => exact sound_readGrid attrs h
  | perColumn => exact sound_readColumns attrs h

end Placement

end DashboardMarkup
