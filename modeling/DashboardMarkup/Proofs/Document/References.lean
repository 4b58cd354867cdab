import DashboardMarkup.Proofs.Check.Findings
import DashboardMarkup.Proofs.Document.Grid
import DashboardMarkup.Proofs.Document.Problems

/-!
# What the parts of a dashboard refer to

A widget refers to its row by key, and a group to its children by id. A dashboard is put together from the rows
of its sections and from its layout, each of which holds together (`RowPart.Owns`, `Placement.Holds`), and its
theme changes none of the names that they go by. So no reference dangles, whatever the document.

* `Dashboard.Assembled`: a dashboard and the parts that it is made of.
* `Dashboard.assembled_of_read`: every dashboard that is read is made so.
* `Dashboard.references`: its rows, the children of its groups, and the ids of its widgets.
-/

namespace DashboardMarkup

open Markup Reading

variable {doc : List Char}

theorem Reading.Sound.of_given {α : Type} {P : α → Prop} {x : Reading α} {a : α} (hx : x.Sound doc P)
    (h : x.Gives a) : P a := by
  obtain ⟨notes, rfl⟩ := h
  exact hx.1

theorem Theme.keeps_fillWidget (theme : Theme) (w : Widget) : w.Keeps (theme.fillWidget w) := by
  have hstyled := Widget.keeps_mapStyling w (theme.fillStyling w.kind)
  exact ⟨hstyled.id, hstyled.row, hstyled.dataSource⟩

namespace Dashboard

/-- The reading of the sections of a document. -/
def readSections (doc : List Char) : Reading (List RowPart) := do
  let root ← (Root.find doc : Except Fault Root)
  RowPart.ofSections doc root.body

/-- The rows that the sections of a document make, if it can be read as far as there. -/
def sectionsOf (doc : List Char) : List RowPart :=
  (readSections doc).value?.getD []

/-- **A dashboard that is made of some rows and a layout**: the widgets of both under its theme, the rows of the
sections beside the layout. -/
structure Assembled (d : Dashboard) (parts : List RowPart) (placement : Placement) : Prop where
  widgets : List.Forall₂ Widget.Keeps (parts.flatMap RowPart.widgets ++ placement.widgets) d.widgets
  layout : d.canvas.layout = placement.layout
  sections : d.canvas.sections = rowsOf parts

variable {d : Dashboard} {parts : List RowPart} {placement : Placement}

/-- A theme keeps what a dashboard is made of. -/
theorem Assembled.withTheme (h : d.Assembled parts placement) (name : String) :
    (d.withTheme name).Assembled parts placement := by
  unfold Dashboard.withTheme Theme.applyToWidgets Theme.applyToCanvas
  cases Theme.find? name with
  | none => exact ⟨h.widgets, h.layout, h.sections⟩
  | some theme =>
    refine ⟨List.forall₂_map_right_iff.mpr (h.widgets.imp fun v w hvw => ?_), h.layout, h.sections⟩
    have hfill := theme.keeps_fillWidget w
    exact ⟨hfill.id.trans hvw.id, hfill.row.trans hvw.row, hfill.dataSource.trans hvw.dataSource⟩

/-- What a dashboard that is read is made of, and where it is read. -/
theorem exists_readings (h : (readDocument doc).Gives d) :
    ∃ root parts mode placement, (liftM (Root.find doc) : Reading Root).Gives root ∧
      (RowPart.ofSections doc root.body).Gives parts ∧
      (Placement.read doc root.attrs root.body mode).Gives placement ∧ d.Assembled parts placement := by
  obtain ⟨root, hroot, h⟩ := exists_of_bind h
  obtain ⟨heading, -, h⟩ := exists_of_bind h
  obtain ⟨period, -, h⟩ := exists_of_bind h
  obtain ⟨blocks, -, h⟩ := exists_of_bind h
  obtain ⟨parts, hparts, h⟩ := exists_of_bind h
  obtain ⟨mode, -, h⟩ := exists_of_bind h
  obtain ⟨placement, hplacement, h⟩ := exists_of_bind h
  refine ⟨root, parts, mode, placement, hroot, hparts, hplacement, ?_⟩
  rw [Widget.eq_of_gives_pure h]
  have hbare : ∀ {d : Dashboard}, d.widgets = parts.flatMap RowPart.widgets ++ placement.widgets →
      d.canvas.layout = placement.layout → d.canvas.sections = rowsOf parts → d.Assembled parts placement :=
    fun hwidgets hlayout hrows => ⟨hwidgets ▸ List.forall₂_same.mpr fun w _ => .refl w, hlayout, hrows⟩
  cases hlast : ((root.attrs.text? "theme").toList ++ blocks.filterMap CanvasStyle.themeOf?).getLast? with
  | none => exact hbare rfl rfl rfl
  | some name => exact (hbare rfl rfl rfl).withTheme name

/-- **Every document that can be read gives a dashboard made of its sections and its layout**, which hold
together. -/
theorem assembled_of_readDocument (h : (readDocument doc).Gives d) :
    ∃ placement, d.Assembled (sectionsOf doc) placement ∧ (∀ p ∈ sectionsOf doc, p.Owns) ∧ placement.Holds := by
  obtain ⟨root, parts, mode, placement, hroot, hparts, hplacement, hmade⟩ := exists_readings h
  have hfits := ((Root.sound_find doc).of_given hroot).fits
  have hread : (readSections doc).Gives parts := hroot.bind hparts
  have hsections : sectionsOf doc = parts := congrArg (Option.getD · []) hread.value?_eq
  rw [hsections]
  exact ⟨placement, hmade, (RowPart.sound_ofSections hfits).of_given hparts,
    (Placement.sound_read root.attrs hfits mode).of_given hplacement⟩

/-! ## References -/

namespace Assembled

/-- A widget of the dashboard is one of a section or of the layout, but for its theme. -/
theorem exists_of_mem (h : d.Assembled parts placement) {w : Widget} (hw : w ∈ d.widgets) :
    ∃ v, v.Keeps w ∧ ((∃ p ∈ parts, v ∈ p.widgets) ∨ v ∈ placement.widgets) := by
  obtain ⟨v, hv, hkeeps⟩ := exists_of_mem_left h.widgets.flip hw
  exact ⟨v, hkeeps, (List.mem_append.mp hv).imp_left List.mem_flatMap.mp⟩

variable (h : d.Assembled parts placement) (hparts : ∀ p ∈ parts, p.Owns) (hplacement : placement.Holds)

include h hparts hplacement

theorem solid_id {w : Widget} (hw : w ∈ d.widgets) : Solid w.id := by
  obtain ⟨v, hkeeps, hv⟩ := h.exists_of_mem hw
  rw [hkeeps.id]
  rcases hv with ⟨p, hp, hv⟩ | hv
  · exact (hparts p hp v hv).1
  · exact hplacement.ids v hv

/-- **No row dangles**: a widget of a section stands in the row of its section, the others in rows of the
layout or in none. -/
theorem declares_row {w : Widget} (hw : w ∈ d.widgets) {row : String} (hrow : w.row = some row) :
    d.canvas.sections.has row = true ∨ ∃ rows, d.canvas.layout.rows? = some rows ∧ rows.has row = true := by
  obtain ⟨v, hkeeps, hv⟩ := h.exists_of_mem hw
  rw [hkeeps.row] at hrow
  rw [h.sections, h.layout]
  rcases hv with ⟨p, hp, hv⟩ | hv
  · rw [(hparts p hp v hv).2] at hrow
    obtain rfl := Option.some.inj hrow
    exact .inl (has_rowsOf hp)
  · exact .inr (hplacement.rows v hv row hrow)

omit hparts in
/-- **The children of a group** are widgets of the dashboard. -/
theorem exists_child {groups : List Group} (hgroups : d.canvas.layout.groups? = some groups) {g : Group}
    (hg : g ∈ groups) {id : String} (hid : id ∈ g.children) : ∃ w ∈ d.widgets, w.id = id := by
  rw [h.layout] at hgroups
  obtain ⟨v, hv, rfl⟩ := List.mem_map.mp (hplacement.children groups hgroups g hg id hid)
  obtain ⟨w, hw, hkeeps⟩ := exists_of_mem_left h.widgets (List.mem_append_right _ hv)
  exact ⟨w, hw, hkeeps.id⟩

end Assembled

/-- Outside a layout by rows no widget of the layout stands in a row. -/
theorem row_of_holds {placement : Placement} (h : placement.Holds) (hmode : placement.layout.mode ≠ .perRow) :
    ∀ w ∈ placement.widgets, w.row = none := by
  intro w hw
  cases hrow : w.row with
  | none => rfl
  | some row =>
    obtain ⟨rows, hrows, -⟩ := h.rows w hw row hrow
    cases hlayout : placement.layout with
    | grid columns gapX gapY groups =>
      rw [hlayout] at hrows
      cases hrows
    | rows entries => exact absurd (by rw [hlayout]; rfl) hmode
    | columns columns template inner =>
      rw [hlayout] at hrows
      cases hrows

/-- **Every dashboard is made of parts that hold together**; one that cannot be read, of none. -/
theorem exists_assembled (text : List Char) :
    ∃ parts placement, (parse text).Assembled parts placement ∧ (∀ p ∈ parts, p.Owns) ∧ placement.Holds ∧
      ((parse text).widgets ≠ [] → parts = sectionsOf (Template.resolve text)) := by
  have hproblem : ∀ problem : Problem, ∃ parts placement, (ofProblem problem).Assembled parts placement ∧
      (∀ p ∈ parts, p.Owns) ∧ placement.Holds ∧
      ((ofProblem problem).widgets ≠ [] → parts = sectionsOf (Template.resolve text)) := fun problem => by
    refine ⟨[], ⟨.rows [], []⟩, ⟨.nil, rfl, rfl⟩, by simp, ?_, fun hne => absurd rfl hne⟩
    exact Placement.holds_of_row_none (by simp) fun _ hgroups => by cases hgroups
  unfold parse read ofDocument
  split
  · next d hd =>
    split at hd
    · split at hd
      · next d' notes hread =>
        obtain rfl := Except.ok.inj hd
        obtain ⟨placement, ⟨hwidgets, hlayout, hsections⟩, hparts, hplacement⟩ :=
          assembled_of_readDocument ⟨notes, hread⟩
        exact ⟨_, placement, ⟨hwidgets, hlayout, hsections⟩, hparts, hplacement, fun _ => rfl⟩
      · cases hd
    · cases hd
  · next problem _ => exact hproblem problem

/-- Only the rule for rows makes findings of its name. -/
theorem mem_danglingRows_of_rule {finding : Finding} (h : finding ∈ d.findings) (hrule : finding.rule = "dangling-row") :
    finding ∈ d.danglingRows := by
  have hof : finding ∈ d.findingsOf "dangling-row" := List.mem_filter.mpr ⟨h, beq_iff_eq.mpr hrule⟩
  rw [findingsOf_eq] at hof
  simpa using hof

/-- **The references of a dashboard**, whatever its text. Each widget that stands in a row names one that a
section or the layout declares, so that none is found to dangle. The children of groups are widgets. Ids of
widgets are not empty and have no blanks around them. Where widgets are not laid out by rows, only those of
sections stand in one. -/
theorem references (text : List Char) :
    (∀ w ∈ (parse text).widgets, ∀ row, w.row = some row → (parse text).canvas.sections.has row = true ∨
      ∃ rows, (parse text).canvas.layout.rows? = some rows ∧ rows.has row = true) ∧
    (∀ finding ∈ (parse text).findings, finding.rule ≠ "dangling-row") ∧
    (∀ groups, (parse text).canvas.layout.groups? = some groups → ∀ g ∈ groups, ∀ id ∈ g.children,
      ∃ w ∈ (parse text).widgets, w.id = id) ∧
    (∀ w ∈ (parse text).widgets, w.id ≠ "" ∧ trimmed w.id = w.id) ∧
    ((parse text).canvas.layout.mode ≠ .perRow → ∃ parts loose,
      List.Forall₂ Widget.Keeps (parts.flatMap RowPart.widgets ++ loose) (parse text).widgets ∧
      ((parse text).widgets ≠ [] → parts = sectionsOf (Template.resolve text)) ∧
      ∀ w ∈ loose, w.row = none) := by
  obtain ⟨parts, placement, hd, hparts, hplacement, hsections⟩ := exists_assembled text
  refine ⟨fun w hw row => hd.declares_row hparts hplacement hw, fun finding hfinding hrule => ?_,
    fun groups hgroups g hg id => hd.exists_child hplacement hgroups hg,
    fun w hw => (hd.solid_id hparts hplacement hw).symm, fun hmode => ?_⟩
  · obtain ⟨w, hw, hdangling⟩ := List.mem_filterMap.mp (mem_danglingRows_of_rule hfinding hrule)
    obtain ⟨row, hrow, hdangling⟩ := Option.bind_eq_some_iff.mp hdangling
    have hdeclared : (parse text).declaresRow row = true := by
      unfold declaresRow
      rcases hd.declares_row hparts hplacement hw hrow with h | ⟨rows, hrows, h⟩
      · rw [h, Bool.true_or]
      · rw [hrows, Option.any_some, h, Bool.or_true]
    rw [if_pos hdeclared] at hdangling
    cases hdangling
  · rw [hd.layout] at hmode
    exact ⟨parts, placement.widgets, hd.widgets, hsections, row_of_holds hplacement hmode⟩

end Dashboard

end DashboardMarkup
