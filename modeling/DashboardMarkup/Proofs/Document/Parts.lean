import DashboardMarkup.Proofs.Document.Filled
import DashboardMarkup.Proofs.Document.Given
import DashboardMarkup.Proofs.Document.Sound

/-!
# Readings of the parts

Each reader of a part of a dashboard keeps the contract of `Reading.Sound`: it is given elements that are
sited in the document, and looks only at spans that fit. What is carried along of its value is what a whole
dashboard needs: the id of a widget is solid, a widget of a grid stands in no row, and one of a row stands in
the row of the part that it is read with.

* `Widget.sound_ofGridElements`, `Widget.sound_ofRowElement`, `Article.sound_read?`: widgets.
* `RowPart.sound_ofSections`, `RowPart.sound_ofRow`, `GroupPart.sound_read`, `ColumnPart.sound_read`: parts.
-/

namespace DashboardMarkup

open Markup Reading

variable {doc : List Char} {e : Element}

/-! ## Blocks -/

namespace Island

theorem sound_parse (island : Island) (body : List Char) {offset : Nat} (h : Opens doc [island.tag] offset) :
    (island.parse body offset).Sound doc fun _ => True := by
  unfold parse
  split
  · exact sound_pure trivial
  · exact sound_note_pure (by simp [Cause.kind]) h trivial

theorem sound_readStyle (island : Island) (h : e.Sited doc) (hname : e.name = island.tag) :
    (island.readStyle doc e).Sound doc fun _ => True := by
  refine (sound_innerText h).bind fun text _ => ?_
  simp only
  split
  · exact sound_parse island _ (h.opens_of_mem (List.mem_singleton.mpr hname))
  · exact sound_pure trivial

theorem sound_readConfig (island : Island) (h : e.Sited doc) (hname : e.name = island.tag) :
    (island.readConfig doc e).Sound doc fun _ => True := by
  refine (sound_innerText h).bind fun text _ => ?_
  simp only
  split
  · exact sound_pure trivial
  · exact sound_parse island _ (h.opens_of_mem (List.mem_singleton.mpr hname))

end Island

theorem Item.sound_ofElement (widget : String) (h : e.Sited doc) (hname : e.name = "item") :
    (Item.ofElement doc widget e).Sound doc fun _ => True := by
  unfold Item.ofElement
  simp only
  split
  · exact sound_note_pure (by simp [Cause.kind]) (h.opens_of_mem (List.mem_singleton.mpr hname)) trivial
  · exact (sound_innerText h).bind fun text _ => sound_pure trivial

namespace Widget

theorem sound_readConfig (w : Widget) (h : e.Sited doc) (hname : e.name = "config") :
    (w.readConfig doc e).Sound doc fun _ => True := by
  refine (Island.sound_readConfig (.config w.id) h hname).bind fun patch _ => ?_
  split
  · exact sound_pure trivial
  · split
    · exact sound_pure trivial
    · exact sound_note_pure (by simp [Cause.kind]) (h.opens_of_mem (List.mem_singleton.mpr hname)) trivial

theorem sound_readStyle (w : Widget) (h : e.Sited doc) (hname : e.name = "style") :
    (w.readStyle doc e).Sound doc fun _ => True := by
  refine (Island.sound_readStyle (.widgetStyle w.id) h hname).bind fun o _ => ?_
  split
  · exact sound_pure trivial
  · exact sound_pure trivial

theorem sound_readItems (w : Widget) (h : e.Sited doc) : (w.readItems doc e).Sound doc fun _ => True := by
  unfold readItems
  split
  · refine Sound.bind (P := fun _ => True) ?_ fun items _ => sound_pure trivial
    refine (sound_find h.fits_content ["item"]).bind fun found hfound => ?_
    refine (Sound.mapM (Q := fun _ => True) fun item hitem => ?_).bind fun items _ => sound_pure trivial
    exact Item.sound_ofElement w.id (hfound.sited item hitem) (List.mem_singleton.mp (hfound.name item hitem))
  · exact sound_pure trivial

theorem sound_readBlock (w : Widget) (h : e.Sited doc) : (w.readBlock doc e).Sound doc fun _ => True := by
  unfold readBlock
  split
  · next hname => exact sound_readConfig w h hname
  · exact sound_pure trivial
  · exact sound_pure trivial
  · next hname => exact sound_readStyle w h hname
  · exact sound_readItems w h
  · exact sound_pure trivial

/-- **What the blocks of a widget fill in**: its id and its row stay. -/
theorem sound_readBlocks (w : Widget) (h : e.Sited doc) :
    (w.readBlocks doc e).Sound doc fun w' => w'.id = w.id ∧ w'.row = w.row := by
  refine Sound.of_gives (P := fun _ => True) ?_ fun w' hw' => ?_
  · refine (sound_find h.fits_content blockNames).bind fun blocks hblocks => ?_
    exact Sound.foldlM (fun block hblock w _ => sound_readBlock w (hblocks.sited block hblock)) trivial
  · obtain ⟨blocks, -, hid, hrow, -⟩ := filled_of_readBlocks hw'
    exact ⟨hid, hrow⟩

/-! ## Widgets -/

theorem sound_identify (h : e.Sited doc) (hname : e.name ∈ widgetNames) :
    (identify e).Sound doc fun found => ∀ given ∈ found, Solid given.1 := by
  unfold identify
  split
  · exact sound_note_pure (by simp [Cause.kind]) (h.opens_of_mem hname) (by simp)
  · next id hid =>
    have hsolid := Attributes.solid_of_text? hid
    split
    · split
      · exact sound_pure (by simpa using hsolid)
      · exact sound_note_pure (by simp [Cause.kind]) (h.opens_of_mem hname) (by simp)
    · split
      · exact sound_pure (by simpa using hsolid)
      · exact sound_note_pure (by simp [Cause.kind]) (h.opens_of_mem hname) (by simp)

/-- **A widget of a grid** stands in no row. -/
theorem sound_ofGridElement (column : Option Nat) (h : e.Sited doc) (hname : e.name ∈ widgetNames) :
    (ofGridElement doc column e).Sound doc fun made => ∀ w ∈ made, Solid w.id ∧ w.row = none := by
  refine (sound_identify h hname).bind fun found hfound => ?_
  split
  · exact sound_pure (by simp)
  · next id kind =>
    refine (sound_readBlocks _ h).bind fun w hw => sound_pure ?_
    have hsolid : Solid id := hfound (id, kind) rfl
    rintro _ ⟨⟩
    exact ⟨hw.1 ▸ hsolid, hw.2⟩

theorem sound_ofGridElements (column : Option Nat) {found : List Element}
    (h : ∀ e ∈ found, e.name ∈ widgetNames ∧ e.Sited doc) :
    (ofGridElements doc column found).Sound doc fun made => ∀ w ∈ made, Solid w.id ∧ w.row = none := by
  refine (Sound.mapM fun e he => sound_ofGridElement column (h e he).2 (h e he).1).bind fun made hmade => ?_
  exact sound_pure (forall_mem_kept hmade)

/-- **A widget of a row** stands in it. -/
theorem sound_ofRowElement (row : String) {lead : Span} (hlead : lead.Fits doc) (h : e.Sited doc)
    (hname : e.name ∈ widgetNames) :
    (ofRowElement doc row lead e).Sound doc fun made => ∀ w ∈ made, Solid w.id ∧ w.row = some row := by
  refine (sound_text hlead).bind fun text _ => ?_
  refine (sound_identify h hname).bind fun found hfound => ?_
  split
  · exact sound_pure (by simp)
  · next id kind =>
    refine (sound_readBlocks _ h).bind fun w hw => sound_pure ?_
    have hsolid : Solid id := hfound (id, kind) rfl
    rintro _ ⟨⟩
    exact ⟨hw.1 ▸ hsolid, hw.2⟩

end Widget

/-! ## Articles and sections -/

namespace Article

theorem sound_readKind (kind : SectionKind) (id : String) {main : Option Element}
    (h : ∀ e ∈ main, e.name = "main" ∧ e.Sited doc) : (readKind kind id main).Sound doc fun _ => True := by
  unfold readKind
  split
  · next e =>
    obtain ⟨hname, hsited⟩ := h e rfl
    split
    · split
      · exact sound_pure trivial
      · exact sound_note_pure (by simp [Cause.kind]) (hsited.opens_of_mem (List.mem_singleton.mpr hname)) trivial
    · exact sound_pure trivial
  · exact sound_pure trivial
  · exact sound_pure trivial

theorem sound_firstText? {es : List Element} (h : ∀ e ∈ es, e.Sited doc) :
    (liftM (firstText? doc es) : Reading (Option String)).Sound doc fun _ => True := by
  induction es with
  | nil => exact sound_lift_pure trivial
  | cons e es ih =>
    unfold firstText?
    refine sound_lift_bind (sound_innerText (h e List.mem_cons_self)) fun text _ => ?_
    split
    · exact sound_lift_pure trivial
    · exact ih fun e' he' => h e' (List.mem_cons_of_mem e he')

theorem sound_readTitle {inner : Span} (h : inner.Fits doc) :
    (liftM (readTitle doc inner) : Reading (Option String)).Sound doc fun _ => True := by
  refine sound_lift_bind (sound_find h _) fun found hfound => ?_
  exact sound_firstText? fun e he => hfound.sited e (List.mem_filter.mp he).1

theorem sound_queryText {inner : Span} (hinner : inner.Fits doc) {main : Option Element}
    (h : ∀ e ∈ main, e.name = "main" ∧ e.Sited doc) :
    (liftM (queryText doc inner main) : Reading (List Char)).Sound doc fun _ => True := by
  unfold queryText
  split
  · next e => exact sound_innerText (h e rfl).2
  · exact sound_text hinner

/-- **A widget of an article** stands in the row of its section. -/
theorem sound_read? (kind : SectionKind) (row : String) (place : Nat) (h : e.Sited doc)
    (hname : e.name = "article") :
    (read? doc kind row place e).Sound doc fun made => ∀ w ∈ made, Solid w.id ∧ w.row = some row := by
  unfold read?
  split
  · exact sound_note_pure (by simp [Cause.kind]) (h.opens_of_mem (List.mem_singleton.mpr hname)) (by simp)
  · next id hid =>
    refine Sound.bind (P := fun w => w.id = id ∧ w.row = some row) ?_ fun w hw => sound_pure ?_
    · refine (sound_findFirst h.fits_content "main").bind fun main hmain => ?_
      refine (sound_readKind kind id hmain).bind fun widgetKind _ => ?_
      refine (sound_readTitle h.fits_content).bind fun title _ => ?_
      refine (sound_queryText h.fits_content hmain).bind fun text _ => ?_
      exact Widget.sound_readBlocks _ h
    · rintro _ ⟨⟩
      exact ⟨hw.1 ▸ Attributes.solid_of_text? hid, hw.2⟩

end Article

/-- The widgets of a row stand in it. -/
def RowPart.Owns (p : RowPart) : Prop :=
  ∀ w ∈ p.widgets, Solid w.id ∧ w.row = some p.id

namespace RowPart

/-- What stands before the first of some elements in the content of another one. -/
theorem fits_before (h : e.Sited doc) {names : List String} {found : List Element}
    (hfound : Found doc e.content names found) :
    Span.Fits ⟨e.content.start, (found.head?.map Element.start).getD e.content.stop⟩ doc := by
  have hstart := h.fits_content.boundary_start
  cases found with
  | nil => exact Span.fits_of_boundary hstart h.fits_content.boundary_stop h.fits_content.start_le_stop
  | cons first more =>
    have hfirst := (hfound.sited first List.mem_cons_self).fits_open.boundary_start
    exact Span.fits_of_boundary hstart hfirst (hfound.within first List.mem_cons_self).start_le

theorem sound_sectionTitle {before : Span} (h : before.Fits doc) :
    (liftM (sectionTitle doc before) : Reading (Option String)).Sound doc fun _ => True := by
  refine sound_lift_bind (sound_find h _) fun found hfound => ?_
  split
  · next e he =>
    exact sound_lift_bind (sound_innerText (hfound.sited e (List.mem_of_head? he))) fun _ _ =>
      sound_lift_pure trivial
  · exact sound_lift_pure trivial

theorem sound_articles (kind : SectionKind) (row : String) {span : Span} {articles : List Element}
    (h : Found doc span ["article"] articles) :
    ((articles.zipIdx 1).mapM fun (a, place) => Article.read? doc kind row place a).Sound doc
      fun made : List (Option Widget) => ∀ w? ∈ made, ∀ w ∈ w?, Solid w.id ∧ w.row = some row :=
  sound_places fun a ha place =>
    Article.sound_read? kind row place (h.sited a ha) (List.mem_singleton.mp (h.name a ha))

theorem sound_ofKindedSection (kind : SectionKind) (place : Nat) (h : e.Sited doc) :
    (ofKindedSection doc kind place e).Sound doc Owns := by
  refine (sound_find h.fits_content ["article"]).bind fun articles harticles => ?_
  refine (sound_sectionTitle (fits_before h harticles)).bind fun title _ => ?_
  exact (sound_articles kind _ harticles).bind fun made hmade => sound_pure (forall_mem_kept hmade)

theorem sound_ofSection (place : Nat) (h : e.Sited doc) :
    (ofSection doc place e).Sound doc fun made => ∀ p ∈ made, p.Owns := by
  unfold ofSection
  split
  · split
    · next kind _ =>
      refine (sound_ofKindedSection kind place h).bind fun p hp => sound_pure ?_
      rintro _ ⟨⟩
      exact hp
    · exact sound_pure (by simp)
  · exact sound_stop h.placed_unclosed

/-- **The rows of sections.** -/
theorem sound_ofSections {body : Span} (h : body.Fits doc) :
    (ofSections doc body).Sound doc fun parts => ∀ p ∈ parts, p.Owns := by
  refine (sound_find h ["section"]).bind fun found hfound => ?_
  refine (sound_places fun e he place => ?_).bind fun made hmade => sound_pure (forall_mem_kept hmade)
  exact sound_ofSection place (hfound.sited e he)

/-! ## Rows -/

theorem sound_readId (place : Nat) (h : e.Sited doc) (hname : e.name = "row") :
    (readId place e).Sound doc fun _ => True := by
  unfold readId
  split
  · exact sound_pure trivial
  · exact sound_note_pure (by simp [Cause.kind]) (h.opens_of_mem (List.mem_singleton.mpr hname)) trivial

theorem sound_readColumns (id : String) (h : e.Sited doc) (hname : e.name = "row") :
    (readColumns id e).Sound doc fun _ => True := by
  unfold readColumns
  simp only
  split
  · exact sound_note_pure (by simp [Cause.kind]) (h.opens_of_mem (List.mem_singleton.mpr hname)) trivial
  · exact sound_pure trivial

/-- **The gaps before elements fit** if these lie one behind another. -/
theorem fits_of_mem_withLeads {start : Nat} {es : List Element} (hstart : Text.Boundary doc start)
    (hsited : ∀ e ∈ es, e.Sited doc) (hle : ∀ e ∈ es, start ≤ e.start)
    (hordered : es.Pairwise fun a b => a.stop ≤ b.start) :
    ∀ p ∈ withLeads start es, p.1.Fits doc ∧ p.2 ∈ es := by
  induction es generalizing start with
  | nil => exact fun p hp => absurd hp List.not_mem_nil
  | cons e es ih =>
    obtain ⟨hfirst, hmore⟩ := List.forall_mem_cons.mp hsited
    obtain ⟨hbehind, hordered⟩ := List.pairwise_cons.mp hordered
    refine List.forall_mem_cons.mpr ⟨⟨?_, List.mem_cons_self⟩, fun p hp => ?_⟩
    · exact Span.fits_of_boundary hstart hfirst.fits_span.boundary_start (hle e List.mem_cons_self)
    · obtain ⟨hfits, hmem⟩ := ih hfirst.fits_span.boundary_stop hmore hbehind hordered p hp
      exact ⟨hfits, List.mem_cons_of_mem e hmem⟩

theorem sound_rowWidgets (row : String) {span : Span} (hspan : span.Fits doc) {found : List Element}
    (h : Found doc span widgetNames found) :
    ((withLeads span.start found).mapM fun (lead, w) => Widget.ofRowElement doc row lead w).Sound doc
      fun made : List (Option Widget) => ∀ w? ∈ made, ∀ w ∈ w?, Solid w.id ∧ w.row = some row := by
  refine Sound.mapM fun p hp => ?_
  obtain ⟨hfits, hmem⟩ := fits_of_mem_withLeads hspan.boundary_start h.sited
    (fun e he => (h.within e he).start_le) h.ordered p hp
  exact Widget.sound_ofRowElement row hfits (h.sited p.2 hmem) (h.name p.2 hmem)

/-- **A row.** -/
theorem sound_ofRow (place : Nat) (h : e.Sited doc) (hname : e.name = "row") :
    (ofRow doc place e).Sound doc Owns := by
  unfold ofRow
  split
  · refine (sound_readId place h hname).bind fun id _ => ?_
    refine (sound_readColumns id h hname).bind fun columns _ => ?_
    refine (sound_find h.fits_content widgetNames).bind fun found hfound => ?_
    exact (sound_rowWidgets id h.fits_content hfound).bind fun made hmade => sound_pure (forall_mem_kept hmade)
  · exact sound_stop h.placed_unclosed

end RowPart

/-! ## Groups and columns -/

/-- The children of a group are the widgets that are read with it, and stand in no row. -/
structure GroupPart.Owns (p : GroupPart) : Prop where
  widgets : ∀ w ∈ p.widgets, Solid w.id ∧ w.row = none
  children : ∀ g ∈ p.group, g.children = p.widgets.map Widget.id

theorem Group.sound_readStyle (id : String) {blocks : List Element}
    (h : ∀ e ∈ blocks, e.Sited doc ∧ e.name = "style") : (Group.readStyle doc id blocks).Sound doc fun _ => True := by
  refine (Sound.mapM (Q := fun _ => True) fun e he => ?_).bind fun objects _ => ?_
  · exact Island.sound_readStyle (.groupStyle id) (h e he).1 (h e he).2
  · split
    · exact sound_pure trivial
    · exact sound_pure trivial

/-- **A group.** -/
theorem GroupPart.sound_read (columns : Breakpoints Nat) (h : e.Sited doc) (hname : e.name = "group") :
    (GroupPart.read doc columns e).Sound doc Owns := by
  unfold GroupPart.read
  split
  · split
    · refine sound_note_pure (by simp [Cause.kind]) (h.opens_of_mem (List.mem_singleton.mpr hname)) ?_
      exact ⟨by simp, by simp⟩
    · next id _ =>
      refine (sound_find h.fits_content ("style" :: widgetNames)).bind fun found hfound => ?_
      refine (Group.sound_readStyle id fun e he => ?_).bind fun style _ => ?_
      · obtain ⟨hmem, hstyle⟩ := List.mem_filter.mp he
        exact ⟨hfound.sited e hmem, beq_iff_eq.mp hstyle⟩
      refine (Widget.sound_ofGridElements none fun e he => ?_).bind fun widgets hwidgets => sound_pure ?_
      · obtain ⟨hmem, hstyle⟩ := List.mem_filter.mp he
        have hne : e.name ≠ "style" := by simpa using hstyle
        exact ⟨(List.mem_cons.mp (hfound.name e hmem)).resolve_left hne, hfound.sited e hmem⟩
      · refine ⟨hwidgets, ?_⟩
        rintro _ ⟨⟩
        rfl
  · exact sound_stop h.placed_unclosed

/-- **A column.** -/
theorem ColumnPart.sound_read (h : e.Sited doc) (hname : e.name = "column") :
    (ColumnPart.read doc e).Sound doc fun made => ∀ p ∈ made, ∀ w ∈ p.widgets, Solid w.id ∧ w.row = none := by
  unfold ColumnPart.read
  split
  · simp only
    split
    · exact sound_note_pure (by simp [Cause.kind]) (h.opens_of_mem (List.mem_singleton.mpr hname)) (by simp)
    · next number _ =>
      refine (sound_find h.fits_content widgetNames).bind fun found hfound => ?_
      refine (Widget.sound_ofGridElements (some number) fun e he =>
        ⟨hfound.name e he, hfound.sited e he⟩).bind fun widgets hwidgets => sound_pure ?_
      rintro _ ⟨⟩
      exact hwidgets
  · exact sound_stop h.placed_unclosed

end DashboardMarkup
