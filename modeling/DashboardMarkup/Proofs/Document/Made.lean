import DashboardMarkup.Proofs.Document.References

/-!
# How widgets are made

A widget begins with what its tag says and is filled in block by block; a theme fills what is absent at the
end. `Widget.Made` are the widgets that come up on the way. What holds of a widget at the start and is kept by
each step holds of all of them, and so of every widget of every dashboard.

* `Widget.Made.invariant`: what each step keeps.
* `Widget.IsNew`: a widget as its tag alone makes it.
* `Layout.Counts`, `Placement.made_read`: the counts of a layout, and the widgets that are made for it.
* `Dashboard.made_parse`: what the dashboard of any text is made of.
-/

namespace DashboardMarkup

open Markup Reading

namespace Reading

variable {α β : Type} {P : α → Prop} {Q : β → Prop}

/-- Every value that a reading gives has a property. Nothing is said of one that stops. -/
def Yields (P : α → Prop) (x : Reading α) : Prop :=
  ∀ a, x.Gives a → P a

theorem yields_pure {a : α} (h : P a) : (pure a : Reading α).Yields P :=
  fun _ hb => hb.unique (gives_pure a) ▸ h

theorem Yields.bind {x : Reading α} {f : α → Reading β} (hx : x.Yields P) (hf : ∀ a, P a → (f a).Yields Q) :
    (x >>= f).Yields Q := fun b hb => by
  obtain ⟨a, ha, hb⟩ := exists_of_bind hb
  exact hf a (hx a ha) b hb

/-- Nothing need be known of the value that comes first. -/
theorem yields_bind {x : Reading α} {f : α → Reading β} (hf : ∀ a, (f a).Yields Q) : (x >>= f).Yields Q :=
  Yields.bind (P := fun _ => True) (fun _ _ => trivial) fun a _ => hf a

theorem yields_stop (fault : Fault) : (stop fault : Reading α).Yields P := by
  rintro a ⟨notes, h⟩
  cases h

theorem Yields.mapM {f : α → Reading β} {as : List α} (hf : ∀ a ∈ as, (f a).Yields Q) :
    (as.mapM f).Yields fun bs => ∀ b ∈ bs, Q b := by
  induction as with
  | nil => exact yields_pure fun _ hb => absurd hb List.not_mem_nil
  | cons a as ih =>
    rw [List.mapM_cons]
    refine (hf a List.mem_cons_self).bind fun b hb => ?_
    refine (ih fun a' ha' => hf a' (List.mem_cons_of_mem a ha')).bind fun bs hbs => ?_
    exact yields_pure (List.forall_mem_cons.mpr ⟨hb, hbs⟩)

theorem Yields.foldlM {f : β → α → Reading β} {as : List α} (hf : ∀ a ∈ as, ∀ b, Q b → (f b a).Yields Q) {b : β}
    (hb : Q b) : (as.foldlM f b).Yields Q := by
  induction as generalizing b with
  | nil => exact yields_pure hb
  | cons a as ih =>
    rw [List.foldlM_cons]
    refine (hf a List.mem_cons_self b hb).bind fun b' hb' => ?_
    exact ih (fun a' ha' => hf a' (List.mem_cons_of_mem a ha')) hb'

end Reading

/-! ## Widgets on the way -/

namespace Widget

/-- **The widgets that come up while widgets are made** of some that one begins with. -/
inductive Made (Start : Widget → Prop) : Widget → Prop
  | start {w : Widget} (h : Start w) : Made Start w
  | block {w w' : Widget} (doc : List Char) (e : Element) (h : Made Start w)
      (hblock : (w.readBlock doc e).Gives w') : Made Start w'
  | theme {w : Widget} (theme : Theme) (h : Made Start w) : Made Start (theme.fillWidget w)

variable {Start : Widget → Prop} {w : Widget}

/-- **What each step keeps holds on the whole way.** -/
theorem Made.invariant {P : Widget → Prop} (hstart : ∀ w, Start w → P w)
    (hblock : ∀ w w' doc e, P w → (w.readBlock doc e).Gives w' → P w')
    (htheme : ∀ w (theme : Theme), P w → P (theme.fillWidget w)) (h : Made Start w) : P w := by
  induction h with
  | start h => exact hstart _ h
  | block doc e _ hgives ih => exact hblock _ _ doc e ih hgives
  | theme theme _ ih => exact htheme _ theme ih

theorem Made.mono {Start' : Widget → Prop} (hstart : ∀ w, Start w → Start' w) (h : Made Start w) : Made Start' w :=
  h.invariant (fun w hw => .start (hstart w hw)) (fun _ _ doc e hw hgives => hw.block doc e hgives)
    fun _ theme hw => hw.theme theme

/-- What all blocks of an element make. -/
theorem made_readBlocks (h : Made Start w) (doc : List Char) (e : Element) :
    (w.readBlocks doc e).Yields (Made Start) :=
  yields_bind fun _ => Yields.foldlM (fun block _ _ hw _ hgives => hw.block doc block hgives) h

end Widget

/-! ## Counts -/

namespace Breakpoints

/-- A property of the values for all widths of screen. -/
structure Each {α : Type} (P : α → Prop) (b : Breakpoints α) : Prop where
  desktop : P b.desktop
  tablet : P b.tablet
  mobile : P b.mobile

/-- Counts none of which is zero. -/
def Positive (b : Breakpoints Nat) : Prop :=
  b.Each (0 < ·)

theorem positive_uniform {n : Nat} (h : 0 < n) : (uniform n).Positive :=
  ⟨h, h, h⟩

end Breakpoints

open Breakpoints (Positive)

/-- Counts that attributes give by widths of screen are positive if those by default are. -/
theorem Attributes.positive_breakpoints (attrs : Attributes) (name : String) {default : Breakpoints Nat}
    (h : default.Positive) : (attrs.breakpoints name default).Positive := by
  obtain ⟨hdesktop, htablet, hmobile⟩ := attrs.breakpoints_pos name h.desktop h.tablet h.mobile
  exact ⟨hdesktop, htablet, hmobile⟩

/-! ## What elements make -/

namespace Widget

/-- A widget has a span on each width of screen, none of them zero. -/
def SpanPositive (w : Widget) : Prop :=
  ∃ counts, w.span = some counts ∧ counts.Positive

/-- A column that a widget begins in is not zero. -/
def StartsPositive (w : Widget) : Prop :=
  ∀ columns ∈ w.gridStart, columns.Each fun column => ∀ n ∈ column, 0 < n

/-- A widget begins in a column on all widths of screen. -/
def StartsEverywhere (w : Widget) : Prop :=
  ∃ columns, w.gridStart = some columns ∧ columns.Each fun column => column.isSome = true

/-- **A widget as its tag alone makes it.** -/
structure IsNew (w : Widget) : Prop where
  config : w.config = none
  styling : w.styling = none
  span : w.SpanPositive
  gridStart : w.StartsPositive

/-- One that begins in a column. -/
structure IsNewInColumn (w : Widget) : Prop extends w.IsNew where
  starts : w.StartsEverywhere

/-- Every widget has the span that its tag gives, by default one. -/
theorem spanPositive_of_eq {w : Widget} {attrs : Attributes}
    (h : w.span = some (attrs.breakpoints "span" (.uniform 1))) : w.SpanPositive :=
  ⟨_, h, attrs.positive_breakpoints "span" (Breakpoints.positive_uniform Nat.one_pos)⟩

variable {doc : List Char} {e : Element} {attrs : Attributes}

theorem positive_gridStartOf {column : Option Nat} (hcolumn : ∀ n ∈ column, 0 < n) :
    (gridStartOf attrs column).Each fun column => ∀ n ∈ column, 0 < n := by
  have hat : ∀ name, ∀ n ∈ (attrs.positive? name).or ((attrs.positive? "col").or column), 0 < n := by
    intro name n hn
    rcases Option.or_eq_some_iff.mp hn with hn | ⟨-, hn⟩
    · exact Attributes.positive?_pos hn
    · rcases Option.or_eq_some_iff.mp hn with hn | ⟨-, hn⟩
      · exact Attributes.positive?_pos hn
      · exact hcolumn n hn
  exact ⟨hat "col-d", hat "col-t", hat "col-m"⟩

/-- A widget of a grid. -/
theorem isNew_grid (id : String) (kind : WidgetKind) (attrs : Attributes) {column : Option Nat}
    (hcolumn : ∀ n ∈ column, 0 < n) :
    IsNew { ofTag id kind attrs with
      gridStart := (gridStartOf attrs column).nonempty?
      width := (widthOf attrs).nonempty? } where
  config := rfl
  styling := rfl
  span := spanPositive_of_eq rfl
  gridStart columns h := by
    unfold Breakpoints.nonempty? at h
    split at h
    · cases h
    · obtain rfl := Option.some.inj h
      exact positive_gridStartOf hcolumn

/-- A widget of a column begins there unless it says otherwise. -/
theorem isNewInColumn (id : String) (kind : WidgetKind) (attrs : Attributes) {n : Nat} (hn : 0 < n) :
    IsNewInColumn { ofTag id kind attrs with
      gridStart := (gridStartOf attrs (some n)).nonempty?
      width := (widthOf attrs).nonempty? } where
  toIsNew := isNew_grid id kind attrs (by simpa using hn)
  starts := by
    have hat : ∀ name, ((attrs.positive? name).or ((attrs.positive? "col").or (some n))).isSome = true := by
      intro name
      simp
    have heach : (gridStartOf attrs (some n)).Each fun column => column.isSome = true :=
      ⟨hat "col-d", hat "col-t", hat "col-m"⟩
    refine ⟨gridStartOf attrs (some n), if_neg fun hempty => ?_, heach⟩
    have hdesktop := heach.desktop
    unfold Breakpoints.isEmpty at hempty
    rw [Bool.and_eq_true, Bool.and_eq_true, Option.isNone_iff_eq_none] at hempty
    rw [hempty.1.1] at hdesktop
    cases hdesktop

/-- The widget of a grid that an element makes. -/
theorem made_ofGridElements {Start : Widget → Prop} {column : Option Nat} (found : List Element)
    (hstart : ∀ id kind attrs, Start { ofTag id kind attrs with
      gridStart := (gridStartOf attrs column).nonempty?
      width := (widthOf attrs).nonempty? }) :
    (ofGridElements doc column found).Yields fun made => ∀ w ∈ made, Made Start w := by
  refine (Yields.mapM (Q := fun made => ∀ w ∈ made, Made Start w) fun e _ => ?_).bind fun made hmade =>
    yields_pure (forall_mem_kept hmade)
  refine yields_bind fun found => ?_
  split
  · exact yields_pure (by simp)
  · next id kind =>
    refine (made_readBlocks (.start (hstart id kind e.attrs)) doc e).bind fun w hw => yields_pure ?_
    rintro _ ⟨⟩
    exact hw

theorem made_ofRowElement (row : String) (lead : Span) :
    (ofRowElement doc row lead e).Yields fun made => ∀ w ∈ made, Made IsNew w := by
  refine yields_bind fun text => yields_bind fun found => ?_
  split
  · exact yields_pure (by simp)
  · next id kind =>
    have hnew : IsNew { ofTag id kind e.attrs with
        row := some row, lead := nonempty? (String.ofList (Text.trim text)) } :=
      ⟨rfl, rfl, spanPositive_of_eq rfl, fun _ h => by cases h⟩
    refine (made_readBlocks (.start hnew) doc e).bind fun w hw => yields_pure ?_
    rintro _ ⟨⟩
    exact hw

end Widget

open Widget

variable {doc : List Char} {e : Element}

theorem Article.made_read? (kind : SectionKind) (row : String) (place : Nat) :
    (read? doc kind row place e).Yields fun made => ∀ w ∈ made, Made IsNew w := by
  unfold read?
  split
  · exact yields_bind fun _ => yields_pure (by simp)
  · refine Yields.bind (P := Made IsNew) ?_ fun w hw => yields_pure ?_
    · refine yields_bind fun main => yields_bind fun widgetKind => yields_bind fun title => ?_
      refine yields_bind fun text => made_readBlocks (.start ?_) doc e
      exact ⟨rfl, rfl, spanPositive_of_eq rfl, fun _ h => by cases h⟩
    · rintro _ ⟨⟩
      exact hw

/-! ## What parts are made of -/

/-- A row with some columns, and its widgets. -/
structure RowPart.IsMade (p : RowPart) : Prop where
  columns : p.row.columns.Positive
  widgets : ∀ w ∈ p.widgets, Made IsNew w

namespace RowPart

theorem made_ofKindedSection (kind : SectionKind) (place : Nat) : (ofKindedSection doc kind place e).Yields IsMade := by
  have hdefault : kind.columns.Positive := by
    cases kind with
    | kpis => exact ⟨by decide, by decide, by decide⟩
    | charts => exact ⟨by decide, by decide, by decide⟩
  refine yields_bind fun articles => yields_bind fun title => ?_
  refine (Yields.mapM fun a _ => Article.made_read? kind _ a.2).bind fun made hmade => yields_pure ?_
  exact ⟨e.attrs.positive_breakpoints "cols" hdefault, forall_mem_kept hmade⟩

theorem made_ofSection (place : Nat) : (ofSection doc place e).Yields fun made => ∀ p ∈ made, p.IsMade := by
  unfold ofSection
  split
  · split
    · next kind _ =>
      refine (made_ofKindedSection kind place).bind fun p hp => yields_pure ?_
      rintro _ ⟨⟩
      exact hp
    · exact yields_pure (by simp)
  · exact yields_stop _

theorem made_ofSections (body : Span) : (ofSections doc body).Yields fun parts => ∀ p ∈ parts, p.IsMade :=
  yields_bind fun _ => (Yields.mapM fun s _ => made_ofSection s.2).bind fun _ hmade =>
    yields_pure (forall_mem_kept hmade)

/-- The counts of a row are given, or one. -/
theorem made_readColumns (id : String) : (readColumns id e).Yields Positive := by
  have hat : ∀ key, 0 < (e.attrs.positive? key).getD 1 := by
    intro key
    cases h : e.attrs.positive? key with
    | none => exact Nat.one_pos
    | some n => exact Attributes.positive?_pos h
  have hcolumns : Positive ⟨(e.attrs.positive? "cols-d").getD 1, (e.attrs.positive? "cols-t").getD 1,
      (e.attrs.positive? "cols-m").getD 1⟩ := ⟨hat "cols-d", hat "cols-t", hat "cols-m"⟩
  unfold readColumns
  simp only
  split
  · exact yields_bind fun _ => yields_pure hcolumns
  · exact yields_pure hcolumns

theorem made_ofRow (place : Nat) : (ofRow doc place e).Yields IsMade := by
  unfold ofRow
  split
  · refine yields_bind fun id => (made_readColumns id).bind fun columns hcolumns => yields_bind fun found => ?_
    refine (Yields.mapM fun w _ => made_ofRowElement id w.1).bind fun made hmade => yields_pure ?_
    exact ⟨hcolumns, forall_mem_kept hmade⟩
  · exact yields_stop _

end RowPart

/-- A group with some columns if it has a grid of its own, and its widgets. -/
structure GroupPart.IsMade (p : GroupPart) : Prop where
  columns : ∀ g ∈ p.group, ∀ columns ∈ g.columns, columns.Positive
  widgets : ∀ w ∈ p.widgets, Made IsNew w

theorem GroupPart.made_read {columns : Breakpoints Nat} (h : columns.Positive) :
    (GroupPart.read doc columns e).Yields IsMade := by
  unfold GroupPart.read
  split
  · split
    · exact yields_bind fun _ => yields_pure ⟨by simp, by simp⟩
    · next id _ =>
      refine yields_bind fun found => yields_bind fun style => ?_
      refine (made_ofGridElements _ fun id kind attrs => isNew_grid id kind attrs (by simp)).bind
        fun widgets hwidgets => yields_pure ⟨?_, hwidgets⟩
      rintro _ ⟨⟩ own hown
      unfold Group.ofAttributes at hown
      simp only at hown
      split at hown
      · obtain rfl := Option.some.inj hown
        exact e.attrs.positive_breakpoints "cols" h
      · cases hown
  · exact yields_stop _

/-- A numbered column with some columns of its own, and its widgets. -/
structure ColumnPart.IsMade (p : ColumnPart) : Prop where
  key : ∃ n, 0 < n ∧ n ≤ Whole.maxCount ∧ p.key = toString n
  span : p.column.span.Positive
  widgets : ∀ w ∈ p.widgets, Made IsNewInColumn w

theorem Measure.positive?_le {s : String} {n : Nat} (h : Measure.positive? s = some n) : n ≤ Whole.maxCount :=
  Whole.count?_le (Option.filter_eq_some_iff.mp h).1

theorem ColumnPart.made_read : (ColumnPart.read doc e).Yields fun made => ∀ p ∈ made, p.IsMade := by
  unfold ColumnPart.read
  split
  · simp only
    split
    · exact yields_bind fun _ => yields_pure (by simp)
    · next number hnumber =>
      have hpos := Measure.positive?_pos hnumber
      refine yields_bind fun found => ?_
      refine (made_ofGridElements found fun id kind attrs => isNewInColumn id kind attrs hpos).bind
        fun widgets hwidgets => yields_pure ?_
      rintro _ ⟨⟩
      refine ⟨⟨number, hpos, Measure.positive?_le hnumber, rfl⟩, ?_, hwidgets⟩
      exact e.attrs.positive_breakpoints "cols" (Breakpoints.positive_uniform Nat.one_pos)
  · exact yields_stop _

/-! ## What layouts are made of -/

/-- The counts of a layout are positive, and its numbered columns have numbers as keys. -/
def Layout.Counts : Layout → Prop
  | .grid shared _ _ groups => shared.Positive ∧ ∀ g ∈ groups, ∀ own ∈ g.columns, own.Positive
  | .rows entries => ∀ entry ∈ entries, entry.2.columns.Positive
  | .columns shared _ inner => shared.Positive ∧ ∀ entries ∈ inner, ∀ entry ∈ entries,
      entry.2.span.Positive ∧ ∃ n, 0 < n ∧ n ≤ Whole.maxCount ∧ entry.1 = toString n

/-- **A layout with its widgets**, which begin in columns if any are numbered. -/
structure Placement.IsMade (p : Placement) : Prop where
  layout : p.layout.Counts
  widgets : ∀ w ∈ p.widgets, Made IsNew w
  columns : p.layout.inner?.isSome = true → ∀ w ∈ p.widgets, Made IsNewInColumn w

/-- What is set by key is one of the values that are set. -/
theorem Keyed.mem_insert {α : Type} {entries : Keyed α} {key : String} {a : α} {entry : String × α}
    (h : entry ∈ entries.insert key a) : entry = (key, a) ∨ entry ∈ entries := by
  induction entries with
  | nil => exact .inl (List.mem_singleton.mp h)
  | cons first rest ih =>
    obtain ⟨k, b⟩ := first
    unfold Keyed.insert at h
    split at h
    · exact (List.mem_cons.mp h).imp_right (List.mem_cons_of_mem _)
    · rcases List.mem_cons.mp h with rfl | h
      · exact .inr List.mem_cons_self
      · exact (ih h).imp_right (List.mem_cons_of_mem _)

/-- Values that are set by key one after another. -/
theorem Keyed.mem_foldl_insert {α β : Type} (key : β → String) (value : β → α) {parts : List β}
    {entries : Keyed α} {entry : String × α}
    (h : entry ∈ parts.foldl (fun entries p => entries.insert (key p) (value p)) entries) :
    entry ∈ entries ∨ ∃ p ∈ parts, entry = (key p, value p) := by
  induction parts generalizing entries with
  | nil => exact .inl h
  | cons p parts ih =>
    rcases ih h with h | ⟨q, hq, rfl⟩
    · exact (Keyed.mem_insert h).symm.imp_right fun heq => ⟨p, List.mem_cons_self, heq⟩
    · exact .inr ⟨q, List.mem_cons_of_mem p hq, rfl⟩

theorem positive_rowsOf {parts : List RowPart} (h : ∀ p ∈ parts, p.IsMade) :
    ∀ entry ∈ rowsOf parts, entry.2.columns.Positive := by
  intro entry hentry
  rcases Keyed.mem_foldl_insert RowPart.id RowPart.row hentry with hentry | ⟨p, hp, rfl⟩
  · exact absurd hentry List.not_mem_nil
  · exact (h p hp).columns

namespace Placement

theorem positive_gridColumns (attrs : Attributes) : (gridColumns attrs).Positive := by
  have hat : ∀ key n, 0 < n → 0 < (attrs.positive? key).getD n := by
    intro key n hn
    cases h : attrs.positive? key with
    | none => exact hn
    | some m => exact Attributes.positive?_pos h
  have hdesktop := hat "cols-d" 12 (by decide)
  exact ⟨hdesktop, hat "cols-t" _ hdesktop, hat "cols-m" 1 Nat.one_pos⟩

theorem made_readRows (body : Span) : (readRows doc body).Yields IsMade := by
  refine yields_bind fun found => ?_
  refine (Yields.mapM (Q := RowPart.IsMade) fun s _ => RowPart.made_ofRow s.2).bind fun parts hparts => yields_pure ?_
  refine ⟨positive_rowsOf hparts, fun w hw => ?_, fun h => by cases h⟩
  obtain ⟨p, hp, hw⟩ := List.mem_flatMap.mp hw
  exact (hparts p hp).widgets w hw

theorem made_readLoose (span : Span) : (readLoose doc span).Yields fun made => ∀ w ∈ made, Made IsNew w :=
  yields_bind fun found => made_ofGridElements found fun id kind attrs => isNew_grid id kind attrs (by simp)

theorem made_readGrid (attrs : Attributes) (body : Span) : (readGrid doc attrs body).Yields IsMade := by
  refine yields_bind fun found => ?_
  refine (Yields.mapM fun e _ => GroupPart.made_read (positive_gridColumns attrs)).bind fun parts hparts => ?_
  refine (Yields.mapM fun piece _ => made_readLoose piece).bind fun loose hloose => yields_pure ?_
  refine ⟨⟨positive_gridColumns attrs, fun g hg => ?_⟩, fun w hw => ?_, fun h => by cases h⟩
  · obtain ⟨p, hp, hg⟩ := List.mem_filterMap.mp hg
    exact (hparts p hp).columns g hg
  · rcases List.mem_append.mp hw with hw | hw
    · obtain ⟨p, hp, hw⟩ := List.mem_flatMap.mp hw
      exact (hparts p hp).widgets w hw
    · obtain ⟨made, hmade, hw⟩ := List.mem_flatten.mp hw
      exact hloose made hmade w hw

theorem made_readColumns (attrs : Attributes) (body : Span) : (readColumns doc attrs body).Yields IsMade := by
  have hcolumns : (attrs.breakpoints "cols" ⟨3, 2, 1⟩).Positive :=
    attrs.positive_breakpoints "cols" ⟨by decide, by decide, by decide⟩
  refine yields_bind fun found => ?_
  split
  · refine (made_readLoose body).bind fun widgets hwidgets => yields_pure ?_
    exact ⟨⟨hcolumns, by simp⟩, hwidgets, fun h => by cases h⟩
  · refine (Yields.mapM fun e _ => ColumnPart.made_read).bind fun made hmade => yields_pure ?_
    have hparts := forall_mem_kept hmade
    have hwidgets : ∀ w ∈ (made.filterMap fun p => p).flatMap ColumnPart.widgets, Made IsNewInColumn w :=
      fun w hw => by
        obtain ⟨p, hp, hw⟩ := List.mem_flatMap.mp hw
        exact (hparts p hp).widgets w hw
    refine ⟨⟨hcolumns, ?_⟩, fun w hw => (hwidgets w hw).mono fun _ h => h.toIsNew, fun _ => hwidgets⟩
    rintro _ ⟨⟩ entry hentry
    rcases Keyed.mem_foldl_insert ColumnPart.key ColumnPart.column hentry with hentry | ⟨p, hp, rfl⟩
    · exact absurd hentry List.not_mem_nil
    · exact ⟨(hparts p hp).span, (hparts p hp).key⟩

theorem made_read (attrs : Attributes) (body : Span) (mode : LayoutMode) :
    (Placement.read doc attrs body mode).Yields IsMade := by
  cases mode with
  | perRow => exact made_readRows body
  | grid => exact made_readGrid attrs body
  | perColumn => exact made_readColumns attrs body

end Placement

/-! ## Dashboards -/

namespace Dashboard

/-- The number of widgets that the sections of a document make, which come first. -/
def sectionWidgets (doc : List Char) : Nat :=
  ((sectionsOf doc).flatMap RowPart.widgets).length

/-- **What a dashboard is made of**: its widgets, of which those of its layout come behind some others and begin
in columns if any are numbered, and the counts of its layout and of the rows of its sections. -/
structure IsMade (d : Dashboard) (before : Nat) : Prop where
  widgets : ∀ w ∈ d.widgets, Made IsNew w
  layout : d.canvas.layout.Counts
  sections : ∀ entry ∈ d.canvas.sections, entry.2.columns.Positive
  columns : d.canvas.layout.inner?.isSome = true → ∀ w ∈ d.widgets.drop before, Made IsNewInColumn w

variable {d : Dashboard} {before : Nat}

/-- The empty dashboard with a problem is made of nothing. -/
theorem isMade_ofProblem (problem : Problem) (before : Nat) : (ofProblem problem).IsMade before where
  widgets _ hw := absurd hw List.not_mem_nil
  layout _ hentry := absurd hentry List.not_mem_nil
  sections _ hentry := absurd hentry List.not_mem_nil
  columns h := by cases h

/-- A theme is one step more on the way of each widget. -/
theorem IsMade.withTheme (h : d.IsMade before) (name : String) : (d.withTheme name).IsMade before := by
  unfold Dashboard.withTheme Theme.applyToWidgets Theme.applyToCanvas
  cases Theme.find? name with
  | none => exact ⟨h.widgets, h.layout, h.sections, h.columns⟩
  | some theme =>
    refine ⟨fun w hw => ?_, h.layout, h.sections, fun hinner w hw => ?_⟩
    · obtain ⟨v, hv, rfl⟩ := List.mem_map.mp hw
      exact (h.widgets v hv).theme theme
    · rw [← List.map_drop] at hw
      obtain ⟨v, hv, rfl⟩ := List.mem_map.mp hw
      exact (h.columns hinner v hv).theme theme

/-- **Every document that can be read gives a dashboard of widgets that are made so.** -/
theorem made_readDocument (doc : List Char) : (readDocument doc).Yields (IsMade · (sectionWidgets doc)) := by
  intro d h
  obtain ⟨root, hroot, h⟩ := exists_of_bind h
  obtain ⟨heading, -, h⟩ := exists_of_bind h
  obtain ⟨period, -, h⟩ := exists_of_bind h
  obtain ⟨blocks, -, h⟩ := exists_of_bind h
  obtain ⟨parts, hparts, h⟩ := exists_of_bind h
  obtain ⟨mode, -, h⟩ := exists_of_bind h
  obtain ⟨placement, hplacement, h⟩ := exists_of_bind h
  have hmade := Placement.made_read root.attrs root.body mode placement hplacement
  have hsections := RowPart.made_ofSections root.body parts hparts
  have hread : (readSections doc).Gives parts := hroot.bind hparts
  have hcount : sectionWidgets doc = (parts.flatMap RowPart.widgets).length := by
    unfold sectionWidgets sectionsOf
    rw [hread.value?_eq, Option.getD_some]
  have hbare : ∀ d : Dashboard, d.widgets = parts.flatMap RowPart.widgets ++ placement.widgets →
      d.canvas.layout = placement.layout → d.canvas.sections = rowsOf parts → d.IsMade (sectionWidgets doc) := by
    intro d hwidgets hlayout hrows
    refine ⟨fun w hw => ?_, hlayout ▸ hmade.layout, hrows ▸ positive_rowsOf hsections, fun hinner w hw => ?_⟩
    · rw [hwidgets] at hw
      rcases List.mem_append.mp hw with hw | hw
      · obtain ⟨p, hp, hw⟩ := List.mem_flatMap.mp hw
        exact (hsections p hp).widgets w hw
      · exact hmade.widgets w hw
    · rw [hwidgets, hcount, List.drop_left] at hw
      exact hmade.columns (hlayout ▸ hinner) w hw
  rw [eq_of_gives_pure h]
  cases ((root.attrs.text? "theme").toList ++ blocks.filterMap CanvasStyle.themeOf?).getLast? with
  | none => exact hbare _ rfl rfl rfl
  | some name => exact (hbare _ rfl rfl rfl).withTheme name

/-- **So is the dashboard of any text.** -/
theorem made_parse (text : List Char) : (parse text).IsMade (sectionWidgets (Template.resolve text)) := by
  unfold parse read ofDocument
  split
  · next d hd =>
    split at hd
    · split at hd
      · next dashboard notes hread =>
        obtain rfl := Except.ok.inj hd
        obtain ⟨hwidgets, hlayout, hsections, hcolumns⟩ := made_readDocument _ dashboard ⟨notes, hread⟩
        exact ⟨hwidgets, hlayout, hsections, hcolumns⟩
      · cases hd
    · cases hd
  · exact isMade_ofProblem _ _

end Dashboard

end DashboardMarkup
