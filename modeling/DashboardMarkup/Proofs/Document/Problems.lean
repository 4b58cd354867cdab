import DashboardMarkup.Proofs.Document.Layouts

/-!
# The problems of a dashboard

The readings of the parts make up the reading of a whole document, which keeps the contract of
`Reading.Sound` for every document there is. So each problem of a dashboard stands where an element opens
that it is about, and a fault in the structure leaves nothing but itself.

* `Dashboard.sound_readDocument`: the contract for a whole document.
* `Dashboard.problems_placed`: where the problems of a dashboard stand, and what is left beside a fault.
-/

namespace DashboardMarkup

open Markup Reading

variable {doc : List Char}

/-! ## The root -/

/-- The content of a root fits the document, and a root with attributes is an element of it. -/
structure Root.Sited (doc : List Char) (root : Root) : Prop where
  fits : root.body.Fits doc
  opens : root.attrs ≠ [] → Opens doc ["dashboard"] root.start

theorem Root.sound_find (doc : List Char) : (liftM (Root.find doc) : Reading Root).Sound doc (Root.Sited doc) := by
  have hall := Span.fits_whole doc
  refine sound_lift_bind (sound_findFirst hall "dashboard") fun found hfound => ?_
  cases found with
  | none => exact sound_lift_pure ⟨hall, fun h => absurd rfl h⟩
  | some e =>
    obtain ⟨hname, hsited⟩ := hfound e rfl
    refine sound_lift_pure ⟨?_, fun _ => hsited.opens_of_mem (List.mem_singleton.mpr hname)⟩
    show Span.Fits (if e.closed then e.content else ⟨e.openEnd, Text.size doc⟩) doc
    split
    · exact hsited.fits_content
    · exact Span.fits_of_boundary hsited.fits_open.boundary_stop hall.boundary_stop hsited.fits_open.stop_le_size

/-! ## Heading, period and looks -/

variable {root : Root}

theorem HeadingLine.sound_ofElement {e : Element} (h : e.Sited doc) :
    (liftM (HeadingLine.ofElement doc e) : Reading HeadingLine).Sound doc fun _ => True :=
  sound_lift_bind (sound_innerText h) fun _ _ => sound_lift_pure trivial

namespace Heading

theorem sound_ofElement {e : Element} (h : e.Sited doc) :
    (liftM (ofElement doc e) : Reading Heading).Sound doc fun _ => True := by
  refine sound_lift_bind (sound_find h.fits_content ["p"]) fun paragraphs hparagraphs => ?_
  refine sound_lift_bind (sound_lift_mapM (Q := fun _ => True) fun p hp => ?_) fun lines _ => ?_
  · exact HeadingLine.sound_ofElement (hparagraphs.sited p hp)
  · exact sound_lift_bind (sound_find h.fits_content _) fun _ _ => sound_lift_pure trivial

theorem sound_read (h : root.Sited doc) :
    (Heading.read doc root.attrs root.start root.body).Sound doc fun _ => True := by
  refine (sound_findFirst h.fits "header").bind fun found hfound => ?_
  cases found with
  | some e =>
    obtain ⟨-, hsited⟩ := hfound e rfl
    simp only
    split
    · exact (sound_ofElement hsited).bind fun _ _ => sound_pure trivial
    · exact sound_stop hsited.placed_unclosed
  | none =>
    simp only
    split
    · exact sound_pure trivial
    · next hgiven =>
      refine sound_note_pure (by simp [Cause.kind]) (h.opens ?_) trivial
      cases htitle : root.attrs.text? "title" with
      | some title => exact Attributes.ne_nil_of_first? htitle
      | none =>
        cases hsubtitle : root.attrs.text? "subtitle" with
        | some subtitle => exact Attributes.ne_nil_of_first? hsubtitle
        | none => exact absurd (by rw [htitle, hsubtitle]; rfl) hgiven

end Heading

theorem DateRange.sound_read (h : root.Sited doc) (heading : Option Heading) :
    (DateRange.read root.attrs root.start heading).Sound doc fun _ => True := by
  unfold DateRange.read
  split
  · next given hgiven =>
    have hopens := h.opens (Attributes.ne_nil_of_first? hgiven)
    unfold ofAttributes
    split
    · split
      · exact sound_pure trivial
      · exact sound_note_pure (by simp [Cause.kind]) hopens trivial
    · split
      · simp only
        split
        · exact sound_pure trivial
        · exact sound_note_pure (by simp [Cause.kind]) hopens trivial
      · exact sound_pure trivial
  · exact sound_pure trivial

theorem CanvasStyle.sound_readBlocks {body : Span} (h : body.Fits doc) :
    (CanvasStyle.readBlocks doc body).Sound doc fun _ => True := by
  refine (sound_find h scopeNames).bind fun found hfound => ?_
  refine (Sound.mapM (Q := fun _ => True) fun e he => ?_).bind fun _ _ => sound_pure trivial
  obtain ⟨hmem, hstyle⟩ := List.mem_filter.mp he
  exact Island.sound_readStyle .dashboardStyle (hfound.sited e hmem) (beq_iff_eq.mp hstyle)

theorem Placement.sound_readMode (h : root.Sited doc) : (readMode root.attrs root.start).Sound doc fun _ => True := by
  unfold readMode
  split
  · exact sound_pure trivial
  · next given hgiven =>
    split
    · exact sound_pure trivial
    · exact sound_note_pure (by simp [Cause.kind]) (h.opens (Attributes.ne_nil_of_first? hgiven)) trivial

/-! ## Whole documents -/

namespace Dashboard

/-- **The reading of any document keeps the contract.** -/
theorem sound_readDocument (doc : List Char) : (readDocument doc).Sound doc fun _ => True := by
  refine (Root.sound_find doc).bind fun root hroot => ?_
  refine (Heading.sound_read hroot).bind fun heading _ => ?_
  refine (DateRange.sound_read hroot heading).bind fun period _ => ?_
  refine (CanvasStyle.sound_readBlocks hroot.fits).bind fun blocks _ => ?_
  refine (RowPart.sound_ofSections hroot.fits).bind fun sections _ => ?_
  refine (Placement.sound_readMode hroot).bind fun mode _ => ?_
  exact (Placement.sound_read root.attrs hroot.fits mode).bind fun _ _ => sound_pure trivial

end Dashboard

/-- A problem is in its place if an element that it may be about opens there. -/
def Problem.Placed (doc : List Char) (p : Problem) : Prop :=
  ∃ offset, Opens doc p.cause.tags offset ∧ p.position = Position.ofOffset doc offset

namespace Dashboard

/-- **Notes become problems in their places**, and none of them makes the document unreadable. -/
theorem placed_of_ofDocument {d : Dashboard} (h : ofDocument doc = .ok d) :
    ∀ p ∈ d.problems, p.cause.kind ≠ .unreadable ∧ p.Placed doc := by
  have hsound := sound_readDocument doc
  unfold ofDocument at h
  split at h
  · split at h
    · next dashboard notes hread =>
      obtain rfl := Except.ok.inj h
      rw [hread] at hsound
      intro p hp
      obtain ⟨note, hnote, rfl⟩ := List.mem_map.mp hp
      have hplaced := hsound.2 note hnote
      exact ⟨hplaced.kind, note.offset, hplaced.opens, rfl⟩
    · cases h
  · cases h

/-- **A fault becomes a problem in its place.** -/
theorem placed_of_ofDocument_error {p : Problem} (h : ofDocument doc = .error p)
    (hmarkup : isMarkup doc = true) : p.Placed doc := by
  have hsound := sound_readDocument doc
  unfold ofDocument at h
  rw [if_pos hmarkup] at h
  split at h
  · cases h
  · next fault hread =>
    obtain rfl := Except.error.inj h
    rw [hread] at hsound
    exact ⟨fault.offset, hsound, rfl⟩

theorem problems_ofProblem {p q : Problem} (h : q ∈ (ofProblem p).problems) : q = p :=
  List.mem_singleton.mp h

/-- **The problems of a dashboard.** It is valid if it has none. If the document is markup, each of them stands
at a `<` where an element opens that it is about. One that makes the document unreadable stands alone, and leaves
nothing of the dashboard. -/
theorem problems_placed (text : List Char) :
    ((parse text).isValid = true ↔ (parse text).problems = []) ∧
    (isMarkup (Template.resolve text) = true → ∀ p ∈ (parse text).problems,
      ∃ offset, Text.At (Template.resolve text) offset '<' ∧
        Opens (Template.resolve text) p.cause.tags offset ∧
        p.position = Position.ofOffset (Template.resolve text) offset) ∧
    ∀ p ∈ (parse text).problems, p.cause.kind = .unreadable →
      (parse text).problems = [p] ∧ (parse text).widgets = [] ∧ (parse text).canvas = {} ∧
        (parse text).heading = none ∧ (parse text).title? = none ∧ (parse text).subtitle? = none ∧
        (parse text).period = none := by
  refine ⟨List.isEmpty_iff, fun hmarkup p hp => ?_, fun p hp hkind => ?_⟩
  · have hplaced : p.Placed (Template.resolve text) := by
      unfold parse read at hp
      split at hp
      · next d hd => exact (placed_of_ofDocument hd p hp).2
      · next q hq =>
        rw [problems_ofProblem hp]
        exact placed_of_ofDocument_error hq hmarkup
    obtain ⟨offset, hopens, hposition⟩ := hplaced
    exact ⟨offset, hopens.at_lt, hopens, hposition⟩
  · unfold parse read at hp ⊢
    split at hp
    · next d hd => exact absurd hkind (placed_of_ofDocument hd p hp).1
    · next q hq =>
      obtain rfl := problems_ofProblem hp
      exact ⟨rfl, rfl, rfl, rfl, rfl, rfl, rfl⟩

end Dashboard

end DashboardMarkup
