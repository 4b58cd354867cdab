import DashboardMarkup.Document.Dashboard
import DashboardMarkup.Proofs.Document.Gives

/-!
# What notes are about

Each thing that can be noted is about one kind of part, and only the readers of such parts note it: the reader of a
group, for one, notes nothing about rows. So what is noted about a part can be found out at its reader alone.

* `Cause.topic`: what a cause is about; `Reading.Tells`: what the notes of a reading are about.
* `tells_placement`: a layout notes something about its parts and the widgets in them.
* `period_of_readDocument`: what the period of a dashboard is, and what is noted about it.
-/

namespace DashboardMarkup

open Markup

/-- What a cause may be about. -/
inductive Topic
  | document
  | heading
  | period
  | mode
  | block
  | article
  | row
  | group
  | column
  | widget
  deriving DecidableEq, Repr

/-- What a cause is about. -/
def Cause.topic : Cause → Topic
  | notMarkup => .document
  | fault _ => .document
  | titleAttributes => .heading
  | unknownMode _ => .mode
  | malformedRange _ => .period
  | rangeWithoutDates => .period
  | malformedJson _ _ => .block
  | rowWithoutId _ => .row
  | rowWithoutColumns _ _ => .row
  | groupWithoutId => .group
  | columnNumber _ => .column
  | articleWithoutId _ => .article
  | unknownChart _ _ => .article
  | widgetWithoutId => .widget
  | widgetWithoutKind _ => .widget
  | unknownKind _ _ => .widget
  | misfitConfig _ _ _ => .block
  | itemWithoutId _ => .block

namespace Reading

variable {α β : Type} {topics topics' : List Topic}

/-- **What the notes of a reading are about**, unless it stops. -/
def Tells (topics : List Topic) (x : Reading α) : Prop :=
  ∀ a notes, x = .ok (a, notes) → ∀ note ∈ notes, note.cause.topic ∈ topics

theorem Tells.mono {x : Reading α} (hx : x.Tells topics) (h : topics ⊆ topics') : x.Tells topics' :=
  fun a notes heq note hn => h (hx a notes heq note hn)

theorem tells_pure (a : α) : (pure a : Reading α).Tells topics := by
  rintro b notes ⟨⟩
  simp

theorem tells_lift (x : Except Fault α) : (liftM x : Reading α).Tells topics := by
  intro b notes h
  cases x with
  | error fault => cases h
  | ok a =>
    obtain ⟨-, rfl⟩ := pure_eq_ok.mp h
    simp

theorem tells_stop (fault : Fault) : (stop fault : Reading α).Tells topics :=
  fun _ _ h => by cases h

theorem tells_note {cause : Cause} (h : cause.topic ∈ topics) (offset : Nat) : (note cause offset).Tells topics := by
  rintro a notes ⟨⟩
  simpa using h

theorem Tells.bind {x : Reading α} {f : α → Reading β} (hx : x.Tells topics) (hf : ∀ a, (f a).Tells topics) :
    (x >>= f).Tells topics := by
  intro b notes h
  obtain ⟨a, first, second, hfirst, hsecond, rfl⟩ := bind_eq_ok.mp h
  exact List.forall_mem_append.mpr ⟨hx a first hfirst, hf a b second hsecond⟩

theorem Tells.map {x : Reading α} (hx : x.Tells topics) (f : α → β) :
    (x >>= fun a => pure (f a)).Tells topics :=
  hx.bind fun a => tells_pure (f a)

theorem tells_mapM {f : α → Reading β} {as : List α} (h : ∀ a, (f a).Tells topics) : (as.mapM f).Tells topics := by
  induction as with
  | nil => exact tells_pure []
  | cons a as ih =>
    rw [List.mapM_cons]
    exact (h a).bind fun b => ih.map (b :: ·)

theorem tells_foldlM {f : β → α → Reading β} {as : List α} (h : ∀ b a, (f b a).Tells topics) (b : β) :
    (as.foldlM f b).Tells topics := by
  induction as generalizing b with
  | nil => exact tells_pure b
  | cons a as ih =>
    rw [List.foldlM_cons]
    exact (h b a).bind ih

/-- A note before a value. -/
theorem tells_note_pure {cause : Cause} (h : cause.topic ∈ topics) (offset : Nat) (a : α) :
    (note cause offset >>= fun _ => pure a : Reading α).Tells topics :=
  (tells_note h offset).map fun _ => a

end Reading

open Reading

section

variable (doc : List Char) (e : Element)

/-! ## Blocks -/

namespace Island

variable (island : Island)

theorem tells_parse (body : List Char) (offset : Nat) : (island.parse body offset).Tells [.block] := by
  unfold parse
  split
  · exact tells_pure _
  · exact tells_note_pure (by simp [Cause.topic]) offset none

theorem tells_readStyle : (island.readStyle doc e).Tells [.block] := by
  refine (tells_lift _).bind fun text => ?_
  simp only
  split
  · exact tells_parse island _ _
  · exact tells_pure none

theorem tells_readConfig : (island.readConfig doc e).Tells [.block] := by
  refine (tells_lift _).bind fun text => ?_
  simp only
  split
  · exact tells_pure none
  · exact tells_parse island _ _

end Island

theorem Item.tells_ofElement (widget : String) : (Item.ofElement doc widget e).Tells [.block] := by
  unfold Item.ofElement
  simp only
  split
  · exact tells_note_pure (by simp [Cause.topic]) _ none
  · exact (tells_lift _).map _

namespace Widget

variable (w : Widget)

theorem tells_readConfig : (w.readConfig doc e).Tells [.block] := by
  refine (Island.tells_readConfig doc e _).bind fun patch => ?_
  split
  · exact tells_pure w
  · split
    · exact tells_pure _
    · exact tells_note_pure (by simp [Cause.topic]) _ _

theorem tells_readStyle : (w.readStyle doc e).Tells [.block] := by
  refine (Island.tells_readStyle doc e _).bind fun o => ?_
  split
  · exact tells_pure w
  · exact tells_pure _

theorem tells_readItems : (w.readItems doc e).Tells [.block] := by
  unfold readItems readItemList
  split
  · refine Tells.map ?_ _
    exact (tells_lift _).bind fun found => (tells_mapM fun item => Item.tells_ofElement doc item w.id).map _
  · exact tells_pure w

theorem tells_readBlock : (w.readBlock doc e).Tells [.block] := by
  unfold readBlock
  split
  · exact tells_readConfig doc e w
  · exact tells_pure _
  · exact tells_pure _
  · exact tells_readStyle doc e w
  · exact tells_readItems doc e w
  · exact tells_pure w

theorem tells_readBlocks : (w.readBlocks doc e).Tells [.block] :=
  (tells_lift _).bind fun _ => tells_foldlM (fun w block => tells_readBlock doc block w) w

/-! ## Widgets -/

theorem tells_identify : (identify e).Tells [.widget] := by
  unfold identify
  split
  · exact tells_note_pure (by simp [Cause.topic]) _ none
  · split
    · split
      · exact tells_pure _
      · exact tells_note_pure (by simp [Cause.topic]) _ none
    · split
      · exact tells_pure _
      · exact tells_note_pure (by simp [Cause.topic]) _ none

theorem tells_ofGridElement (column : Option Nat) : (ofGridElement doc column e).Tells [.block, .widget] := by
  refine ((tells_identify e).mono (by decide)).bind fun found => ?_
  split
  · exact tells_pure none
  · exact ((tells_readBlocks doc e _).mono (by decide)).map some

theorem tells_ofRowElement (row : String) (lead : Span) :
    (ofRowElement doc row lead e).Tells [.block, .widget] := by
  refine (tells_lift _).bind fun before => ((tells_identify e).mono (by decide)).bind fun found => ?_
  split
  · exact tells_pure none
  · exact ((tells_readBlocks doc e _).mono (by decide)).map some

theorem tells_ofGridElements (column : Option Nat) (es : List Element) :
    (ofGridElements doc column es).Tells [.block, .widget] :=
  (tells_mapM fun e => tells_ofGridElement doc e column).map _

end Widget

/-! ## Sections -/

namespace Article

theorem tells_readKind (kind : SectionKind) (id : String) (main : Option Element) :
    (readKind kind id main).Tells [.article] := by
  unfold readKind
  split
  · split
    · split
      · exact tells_pure _
      · exact tells_note_pure (by simp [Cause.topic]) _ _
    · exact tells_pure _
  · exact tells_pure _
  · exact tells_pure _

theorem tells_read? (kind : SectionKind) (row : String) (place : Nat) :
    (read? doc kind row place e).Tells [.block, .article] := by
  unfold read?
  split
  · exact tells_note_pure (by simp [Cause.topic]) _ none
  · next id _ =>
    refine Tells.map ?_ some
    refine (tells_lift _).bind fun main => ((tells_readKind kind id main).mono (by decide)).bind fun widgetKind => ?_
    refine (tells_lift _).bind fun title => (tells_lift _).bind fun text => ?_
    exact (Widget.tells_readBlocks doc e _).mono (by decide)

end Article

namespace RowPart

theorem tells_ofKindedSection (kind : SectionKind) (place : Nat) :
    (ofKindedSection doc kind place e).Tells [.block, .article] := by
  refine (tells_lift _).bind fun articles => (tells_lift _).bind fun title => ?_
  exact (tells_mapM fun a : Element × Nat => Article.tells_read? doc a.1 kind _ a.2).map _

theorem tells_ofSection (place : Nat) : (ofSection doc place e).Tells [.block, .article] := by
  unfold ofSection
  split
  · split
    · exact (tells_ofKindedSection doc e _ place).map some
    · exact tells_pure none
  · exact tells_stop _

theorem tells_ofSections (body : Span) : (ofSections doc body).Tells [.block, .article] :=
  (tells_lift _).bind fun _ => (tells_mapM fun s : Element × Nat => tells_ofSection doc s.1 s.2).map _

/-! ## Layouts -/

theorem tells_readId (place : Nat) : (readId place e).Tells [.row] := by
  unfold readId
  split
  · exact tells_pure _
  · exact tells_note_pure (by simp [Cause.topic]) _ _

theorem tells_readColumns (id : String) : (readColumns id e).Tells [.row] := by
  unfold readColumns
  simp only
  split
  · exact tells_note_pure (by simp [Cause.topic]) _ _
  · exact tells_pure _

theorem tells_ofRow (place : Nat) : (ofRow doc place e).Tells [.block, .row, .widget] := by
  unfold ofRow
  split
  · refine ((tells_readId e place).mono (by decide)).bind fun id => ?_
    refine ((tells_readColumns e id).mono (by decide)).bind fun columns => (tells_lift _).bind fun found => ?_
    exact (tells_mapM fun p : Span × Element => (Widget.tells_ofRowElement doc p.2 id p.1).mono (by decide)).map _
  · exact tells_stop _

end RowPart

theorem Group.tells_readStyle (id : String) (blocks : List Element) :
    (Group.readStyle doc id blocks).Tells [.block] := by
  refine (tells_mapM fun s => Island.tells_readStyle doc s _).bind fun objects => ?_
  split
  · exact tells_pure none
  · exact tells_pure _

theorem GroupPart.tells_read (columns : Breakpoints Nat) :
    (GroupPart.read doc columns e).Tells [.block, .group, .widget] := by
  unfold GroupPart.read
  split
  · split
    · exact tells_note_pure (by simp [Cause.topic]) _ _
    · next id _ =>
      refine (tells_lift _).bind fun found => ?_
      refine ((Group.tells_readStyle doc id _).mono (by decide)).bind fun style => ?_
      exact ((Widget.tells_ofGridElements doc none _).mono (by decide)).map _
  · exact tells_stop _

theorem ColumnPart.tells_read : (ColumnPart.read doc e).Tells [.block, .column, .widget] := by
  unfold ColumnPart.read
  split
  · simp only
    split
    · exact tells_note_pure (by simp [Cause.topic]) _ none
    · refine (tells_lift _).bind fun found => ?_
      exact ((Widget.tells_ofGridElements doc _ found).mono (by decide)).map _
  · exact tells_stop _

namespace Placement

theorem tells_readLoose (span : Span) : (readLoose doc span).Tells [.block, .widget] :=
  (tells_lift _).bind fun found => Widget.tells_ofGridElements doc none found

/-- **A layout** notes something about its parts and the widgets in them. -/
theorem tells_placement (attrs : Attributes) (body : Span) (mode : LayoutMode) :
    (Placement.read doc attrs body mode).Tells [.block, .row, .group, .column, .widget] := by
  cases mode with
  | perRow =>
    refine (tells_lift _).bind fun found => Tells.map ?_ _
    exact tells_mapM fun p : Element × Nat => (RowPart.tells_ofRow doc p.1 p.2).mono (by decide)
  | grid =>
    refine (tells_lift _).bind fun found => ?_
    refine (tells_mapM fun e => (GroupPart.tells_read doc e _).mono (by decide)).bind fun parts => ?_
    exact (tells_mapM fun piece => (tells_readLoose doc piece).mono (by decide)).map _
  | perColumn =>
    refine (tells_lift _).bind fun found => ?_
    split
    · exact ((tells_readLoose doc body).mono (by decide)).map _
    · exact (tells_mapM fun e => (ColumnPart.tells_read doc e).mono (by decide)).map _

theorem tells_readMode (attrs : Attributes) (start : Nat) : (readMode attrs start).Tells [.mode] := by
  unfold readMode
  split
  · exact tells_pure _
  · split
    · exact tells_pure _
    · exact tells_note_pure (by simp [Cause.topic]) start _

end Placement

/-! ## Dashboards -/

theorem Heading.tells_read (attrs : Attributes) (start : Nat) (body : Span) :
    (Heading.read doc attrs start body).Tells [.heading] := by
  refine (tells_lift _).bind fun found => ?_
  split
  · split
    · exact (tells_lift _).map some
    · exact tells_stop _
  · simp only
    split
    · exact tells_pure none
    · exact tells_note_pure (by simp [Cause.topic]) start _

theorem DateRange.tells_read (attrs : Attributes) (start : Nat) (heading : Option Heading) :
    (DateRange.read attrs start heading).Tells [.period] := by
  unfold DateRange.read
  split
  · unfold ofAttributes
    split
    · split
      · exact tells_pure _
      · exact tells_note_pure (by simp [Cause.topic]) start none
    · split
      · simp only
        split
        · exact tells_pure _
        · exact tells_note_pure (by simp [Cause.topic]) start none
      · exact tells_pure _
  · exact tells_pure _

theorem CanvasStyle.tells_readBlocks (body : Span) : (CanvasStyle.readBlocks doc body).Tells [.block] :=
  (tells_lift _).bind fun _ => (tells_mapM fun s => Island.tells_readStyle doc s _).map _

end

namespace Dashboard

variable {doc : List Char} {d : Dashboard} {notes : List Note}

/-- **The period of a dashboard is what its own reader gives**, and no other one notes anything about it. -/
theorem period_of_readDocument (h : readDocument doc = .ok (d, notes)) :
    ∃ root heading first, Root.find doc = .ok root ∧
      DateRange.read root.attrs root.start heading = .ok (d.period, first) ∧
      ∀ note ∈ notes, note.cause.topic = .period → note ∈ first := by
  obtain ⟨root, nRoot, _, hroot, afterRoot, rfl⟩ := bind_eq_ok.mp h
  obtain ⟨heading, nHeading, _, hheading, afterHeading, rfl⟩ := bind_eq_ok.mp afterRoot
  obtain ⟨period, nPeriod, _, hperiod, afterPeriod, rfl⟩ := bind_eq_ok.mp afterHeading
  obtain ⟨blocks, nBlocks, _, hblocks, afterBlocks, rfl⟩ := bind_eq_ok.mp afterPeriod
  obtain ⟨parts, nParts, _, hparts, afterParts, rfl⟩ := bind_eq_ok.mp afterBlocks
  obtain ⟨mode, nMode, _, hmode, afterMode, rfl⟩ := bind_eq_ok.mp afterParts
  obtain ⟨placement, nPlacement, _, hplacement, afterAll, rfl⟩ := bind_eq_ok.mp afterMode
  obtain ⟨hd, rfl⟩ := pure_eq_ok.mp afterAll
  have hsame : d.period = period := by
    rw [← hd]
    cases ((root.attrs.text? "theme").toList ++ blocks.filterMap CanvasStyle.themeOf?).getLast? with
    | none => rfl
    | some name => rfl
  refine ⟨root, heading, nPeriod, Gives.eq_ok ⟨nRoot, hroot⟩, hsame ▸ hperiod, fun note hn hperiod => ?_⟩
  have hother : ∀ {topics : List Topic}, note.cause.topic ∈ topics → Topic.period ∉ topics → note ∈ nPeriod :=
    fun hmem hnot => absurd (hperiod ▸ hmem) hnot
  simp only [List.append_nil, List.mem_append] at hn
  rcases hn with hn | hn | hn | hn | hn | hn | hn
  · exact hother (@tells_lift _ [] _ _ _ hroot note hn) (by decide)
  · exact hother (Heading.tells_read doc _ _ _ _ _ hheading note hn) (by decide)
  · exact hn
  · exact hother (CanvasStyle.tells_readBlocks doc _ _ _ hblocks note hn) (by decide)
  · exact hother (RowPart.tells_ofSections doc _ _ _ hparts note hn) (by decide)
  · exact hother (Placement.tells_readMode _ _ _ _ hmode note hn) (by decide)
  · exact hother (Placement.tells_placement doc _ _ _ _ _ hplacement note hn) (by decide)

end Dashboard

end DashboardMarkup
