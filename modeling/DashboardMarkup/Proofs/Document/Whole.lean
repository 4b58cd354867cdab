import DashboardMarkup.Document.Dashboard
import DashboardMarkup.Proofs.Document.Grid
import DashboardMarkup.Proofs.Document.Section
import DashboardMarkup.Proofs.Template.Untagged

/-!
# Dashboards of well-formed documents

A well-formed document whose root is laid out on a grid is always read, and what it gives is said of its tree:
the widgets of its sections, then those of its groups, then those between the groups, all under the theme of
the root.

* `Node.dashboard`: the dashboard that a root makes.
* `parse_grid`: the document is parsed to it.
* `placedWidgets_eq`: the widgets of a grid, if none of them holds a group.
-/

namespace DashboardMarkup

open Markup Text

namespace Markup

/-- A root that is laid out on a grid. -/
def Node.IsGrid (root : Node) : Prop :=
  (root.attrs.first? ["layout-mode", "layoutMode"]).bind LayoutMode.ofText? = some .grid

/-- A line of a heading. -/
def Node.headingLine (n : Node) : HeadingLine :=
  ⟨String.ofList (visible n.content.chars), .ofAttributes n.attrs⟩

/-- The heading that a `<header>` element makes. -/
def Node.ownHeading (n : Node) : Heading :=
  let lines := (n.content.nodes ["p"]).map Node.headingLine
  { title := lines[0]?
    subtitle := lines[1]?
    backgroundColor := n.attrs.first? ["background-color", "backgroundColor"]
    align := n.attrs.first? ["align", "text-align"]
    datePicker := (n.content.nodes ["daterange", "datepicker"]).head?.map fun p => .ofAttributes p.attrs }

/-- The heading of a root. -/
def Node.heading? (root : Node) : Option Heading :=
  match (root.content.nodes ["header"]).head? with
  | some header => some header.ownHeading
  | none =>
    let title := root.attrs.text? "title"
    let subtitle := root.attrs.text? "subtitle"
    if title.isNone && subtitle.isNone then none else some (Heading.ofTitles title subtitle)

/-- The period of a root. -/
def Node.period? (root : Node) : Option DateRange :=
  (DateRange.read root.attrs 0 root.heading?).value?.join

/-- The objects in the style blocks of a root. -/
def Node.canvasObjects (root : Node) : List Json.Object :=
  ((root.content.nodes CanvasStyle.scopeNames).filter (·.name == "style")).filterMap fun n =>
    styleObject? n.content.chars

/-- The theme of a root: the last one that is named. -/
def Node.theme? (root : Node) : Option String :=
  ((root.attrs.text? "theme").toList ++ root.canvasObjects.filterMap CanvasStyle.themeOf?).getLast?

/-- The groups of a root. -/
def Node.groups (root : Node) : List Group :=
  ((root.content.nodes ["group"]).map
    (Node.groupPart (Placement.gridColumns root.attrs))).filterMap GroupPart.group

/-- The widgets in the groups of a root, and those outside all groups. -/
def Node.gridWidgets (root : Node) : List Widget :=
  ((root.content.nodes ["group"]).map (Node.groupPart (Placement.gridColumns root.attrs))).flatMap
      GroupPart.widgets ++
    (root.content.loose "group" widgetNames).filterMap Node.widget?

/-- The widgets on the grid of a root: those in its groups, then those between these. -/
def Node.placedWidgets (root : Node) : List Widget :=
  ((root.content.nodes ["group"]).map (Node.groupPart (Placement.gridColumns root.attrs))).flatMap
      GroupPart.widgets ++
    (root.content.strays "group" widgetNames).filterMap Node.widget?

/-- The canvas of a root. -/
def Node.canvas (root : Node) : Canvas :=
  { Canvas.ofAttributes root.attrs with
    layout := .grid (Placement.gridColumns root.attrs) root.attrs.gapX? root.attrs.gapY? root.groups
    sections := rowsOf root.content.rowParts
    style := root.canvasObjects.foldl CanvasStyle.overlay (.ofAttributes root.attrs) }

/-- The dashboard of a root on a grid. -/
def Node.dashboard (root : Node) : Dashboard :=
  let d : Dashboard :=
    { widgets := root.content.rowParts.flatMap RowPart.widgets ++ root.placedWidgets
      canvas := root.canvas
      heading := root.heading?
      period := root.period? }
  (root.theme?.map d.withTheme).getD d

/-- **If no widget on it holds a group**, all widgets of a grid stand in its groups or outside. -/
theorem placedWidgets_eq {root : Node} (h : root.content.Apart "group" widgetNames) :
    root.placedWidgets = root.gridWidgets := by
  unfold Node.placedWidgets Node.gridWidgets
  rw [strays_eq_loose (by decide) h]

end Markup

section

variable {doc : List Char} {n : Node} {e : Element}

theorem headingLines_shown {ns : List Node} {es : List Element} (h : List.Forall₂ (Node.Shown doc) ns es) :
    es.mapM (HeadingLine.ofElement doc) = .ok (ns.map Node.headingLine) := by
  induction h with
  | nil => rfl
  | @cons n e ns es hn _ ih =>
    have hline : HeadingLine.ofElement doc e = .ok n.headingLine := by
      unfold HeadingLine.ofElement
      rw [hn.innerText, hn.attrs]
      rfl
    rw [exceptMapM_cons, hline, ih]
    rfl

theorem heading_ofElement (h : n.Shown doc e) (hn : n.content.WellFormed) :
    Heading.ofElement doc e = .ok n.ownHeading := by
  obtain ⟨paragraphs, hfind, hlines⟩ := h.find hn (show ∀ name ∈ ["p"], Searchable name by decide)
  obtain ⟨pickers, hpickers, hshown⟩ := h.find hn
    (show ∀ name ∈ ["daterange", "datepicker"], Searchable name by decide)
  have hpicker : (pickers.head?.map fun p => DatePicker.ofAttributes p.attrs) =
      (n.content.nodes ["daterange", "datepicker"]).head?.map fun p => .ofAttributes p.attrs := by
    generalize n.content.nodes ["daterange", "datepicker"] = ns at hshown
    cases hshown with
    | nil => rfl
    | cons hfirst _ => simp [hfirst.attrs]
  unfold Heading.ofElement Node.ownHeading
  simp only [hfind, headingLines_shown hlines, hpickers, hpicker, h.attrs, bind, Except.bind]
  rfl

/-- The heading of a well-formed document is read. -/
theorem gives_heading (h : n.Shown doc e) (hn : n.content.WellFormed) (start : Nat) :
    (Heading.read doc n.attrs start e.content).Gives n.heading? := by
  obtain ⟨found, hfind, hshown⟩ := h.find hn (show ∀ name ∈ ["header"], Searchable name by decide)
  have hwell := forall₂_wellFormed hshown fun m hm => wellFormed_of_mem_nodes hn hm
  have hfirst : findFirst doc e.content "header" = .ok found.head? := by
    unfold findFirst
    rw [hfind]
    rfl
  unfold Heading.read Node.heading?
  generalize n.content.nodes ["header"] = headers at hwell
  refine (Reading.gives_of_ok hfirst).bind ?_
  cases hwell with
  | nil =>
    simp only [List.head?_nil]
    split
    · exact Reading.gives_pure none
    · exact (Reading.gives_note _ _).bind (Reading.gives_pure _)
  | @cons m header _ _ hheader _ =>
    simp only [List.head?_cons, if_pos hheader.2.closed]
    exact (Reading.gives_of_ok (heading_ofElement hheader.2 hheader.1)).map some

/-- The period does not depend on the place of the root. -/
theorem exists_period (attrs : Attributes) (heading : Option Heading) :
    ∃ period, ∀ start, (DateRange.read attrs start heading).Gives period := by
  have hnone : ∀ cause, ∃ period, ∀ start, (do
      Reading.note cause start
      return none : Reading (Option DateRange)).Gives period :=
    fun cause => ⟨none, fun _ => (Reading.gives_note _ _).bind (Reading.gives_pure none)⟩
  unfold DateRange.read
  split
  · unfold DateRange.ofAttributes
    split
    · split
      · exact ⟨_, fun _ => Reading.gives_pure _⟩
      · exact hnone _
    · split
      · simp only
        split
        · exact ⟨_, fun _ => Reading.gives_pure _⟩
        · exact hnone _
      · exact ⟨_, fun _ => Reading.gives_pure _⟩
  · exact ⟨_, fun _ => Reading.gives_pure _⟩

theorem gives_period (root : Node) (start : Nat) :
    (DateRange.read root.attrs start root.heading?).Gives root.period? := by
  obtain ⟨period, hperiod⟩ := exists_period root.attrs root.heading?
  unfold Node.period?
  rw [(hperiod 0).value?_eq]
  exact hperiod start

theorem gives_canvasObjects (h : n.Shown doc e) (hn : n.content.WellFormed) :
    (CanvasStyle.readBlocks doc e.content).Gives n.canvasObjects := by
  obtain ⟨found, hfind, hshown⟩ := @Node.Shown.find _ _ _ h hn CanvasStyle.scopeNames (by decide)
  refine (Reading.gives_of_ok hfind).bind ?_
  have hobjects := (gives_readStyles (shown_filter hshown (· == "style")) .dashboardStyle).map
    fun objects => objects.filterMap fun o => o
  rw [List.filterMap_map] at hobjects
  exact hobjects

theorem gives_readMode {attrs : Attributes} {mode : LayoutMode}
    (h : (attrs.first? ["layout-mode", "layoutMode"]).bind LayoutMode.ofText? = some mode) (start : Nat) :
    (Placement.readMode attrs start).Gives mode := by
  obtain ⟨given, hgiven, hmode⟩ := Option.bind_eq_some_iff.mp h
  unfold Placement.readMode
  simp only [hgiven, hmode]
  exact Reading.gives_pure mode

/-- Where the search for dashboards reports those of a tree, the first one is the root. -/
theorem exists_root_of_find {f : Forest}
    (hfind : find f.chars ⟨0, size f.chars⟩ ["dashboard"] = .ok (f.outermost ["dashboard"] 0)) {root : Node}
    (hroot : (f.nodes ["dashboard"]).head? = some root) :
    ∃ e, root.Shown f.chars e ∧ findFirst f.chars ⟨0, size f.chars⟩ "dashboard" = .ok (some e) ∧
      Root.find f.chars = .ok ⟨root.attrs, e.start, e.content⟩ := by
  have hdoc : f.chars = [] ++ (f.chars ++ []) := by simp
  have hshown := shown_outermost ["dashboard"] hdoc
  rw [size_nil] at hshown
  cases hnodes : f.nodes ["dashboard"] with
  | nil =>
    rw [hnodes] at hroot
    exact absurd hroot (by simp)
  | cons n more =>
    rw [hnodes, List.head?_cons, Option.some.injEq] at hroot
    subst hroot
    rw [hnodes] at hshown
    cases hout : f.outermost ["dashboard"] 0 with
    | nil =>
      rw [hout] at hshown
      cases hshown
    | cons e es =>
      rw [hout] at hshown hfind
      obtain ⟨he, -⟩ := List.forall₂_cons.mp hshown
      have hfirst : findFirst f.chars ⟨0, size f.chars⟩ "dashboard" = .ok (some e) := by
        unfold findFirst
        rw [hfind]
        rfl
      refine ⟨e, he, hfirst, ?_⟩
      unfold Root.find
      simp only [hfirst, bind, Except.bind, he.closed, he.attrs, if_true]
      rfl

/-- The first dashboard of a well-formed document is its root. -/
theorem exists_root {f : Forest} (hf : f.WellFormed) {root : Node}
    (hroot : (f.nodes ["dashboard"]).head? = some root) :
    ∃ e, root.Shown f.chars e ∧ Root.find f.chars = .ok ⟨root.attrs, e.start, e.content⟩ := by
  have hfind := find_forest (show ∀ name ∈ ["dashboard"], Searchable name by decide) hf [] []
  simp only [List.nil_append, List.append_nil, size_nil, Nat.zero_add] at hfind
  obtain ⟨e, hshown, -, hfound⟩ := exists_root_of_find hfind hroot
  exact ⟨e, hshown, hfound⟩

end

/-- **A well-formed document with a root on a grid is read as its tree says.** -/
theorem gives_readDocument {f : Forest} (hf : f.WellFormed) {root : Node}
    (hroot : (f.nodes ["dashboard"]).head? = some root) (hgrid : root.IsGrid) :
    (Dashboard.readDocument f.chars).Gives root.dashboard := by
  have hwell : root.content.WellFormed := wellFormed_of_mem_nodes hf (List.mem_of_mem_head? hroot)
  obtain ⟨e, hshown, hfind⟩ := exists_root hf hroot
  have hheading := gives_heading hshown hwell e.start
  have hobjects := gives_canvasObjects hshown hwell
  have hmode := gives_readMode hgrid e.start
  obtain ⟨before, behind, hdoc, hspan⟩ := hshown.content
  have hsections := gives_ofSections hwell before behind
  have hplacement := gives_readGrid hwell before behind root.attrs
  rw [← hdoc, ← hspan] at hsections hplacement
  unfold Dashboard.readDocument
  refine (Reading.gives_of_ok hfind).bind ?_
  refine hheading.bind ((gives_period root e.start).bind (hobjects.bind (hsections.bind (hmode.bind ?_))))
  exact hplacement.bind (Reading.gives_pure _)

/-- **It is parsed to its dashboard**, with the problems that are noted. -/
theorem parse_grid {f : Forest} (hf : f.WellFormed) {root : Node}
    (hroot : (f.nodes ["dashboard"]).head? = some root) (hgrid : root.IsGrid)
    (hmarkup : Dashboard.isMarkup f.chars = true) (huntagged : Template.Untagged f.chars) :
    ∃ problems, Dashboard.parse f.chars = { root.dashboard with problems := problems } := by
  obtain ⟨notes, hread⟩ := gives_readDocument hf hroot hgrid
  refine ⟨notes.map (Problem.ofNote f.chars), ?_⟩
  unfold Dashboard.parse Dashboard.read Dashboard.ofDocument
  rw [Template.resolve_untagged huntagged, if_pos hmarkup, hread]

/-! ## Under the theme -/

/-- A widget under the theme of a root. -/
def Markup.Node.dress (root : Node) (w : Widget) : Widget :=
  ((root.theme?.bind Theme.find?).map fun theme => theme.fillWidget w).getD w

theorem dress_keeps (root : Node) (w : Widget) : w.Keeps (root.dress w) := by
  unfold Node.dress
  cases root.theme?.bind Theme.find? with
  | none => exact .refl w
  | some theme =>
    have hstyled := Widget.keeps_mapStyling w (theme.fillStyling w.kind)
    exact ⟨hstyled.id, hstyled.row, hstyled.dataSource⟩

/-- **The widgets of a dashboard**: those of its sections, then those of its grid, under its theme. -/
theorem widgets_dashboard (root : Node) :
    root.dashboard.widgets =
      (root.content.rowParts.flatMap RowPart.widgets ++ root.placedWidgets).map root.dress := by
  unfold Node.dashboard
  have hdress : root.dress = fun w => ((root.theme?.bind Theme.find?).map fun t => t.fillWidget w).getD w := rfl
  rw [hdress]
  cases root.theme? with
  | none => simp
  | some name =>
    simp only [Option.map_some, Option.getD_some, Option.bind_some]
    unfold Dashboard.withTheme Theme.applyToWidgets
    cases Theme.find? name with
    | none => simp
    | some theme => rfl

/-- **The layout of a dashboard**: its grid with its groups. -/
theorem layout_dashboard (root : Node) :
    root.dashboard.canvas.layout =
      .grid (Placement.gridColumns root.attrs) root.attrs.gapX? root.attrs.gapY? root.groups := by
  unfold Node.dashboard
  cases root.theme? with
  | none => rfl
  | some name =>
    show (Theme.applyToCanvas name root.canvas).layout = _
    unfold Theme.applyToCanvas
    cases Theme.find? name with
    | none => rfl
    | some theme => rfl

/-! ## Documents on a grid -/

/-- **A well-formed document on a grid**: its first dashboard is laid out on one, and no opening mark of a
template stands anywhere. -/
structure Markup.Forest.IsBoard (f : Forest) (root : Node) : Prop where
  wellFormed : f.WellFormed
  untagged : Template.Untagged f.chars
  markup : Dashboard.isMarkup f.chars = true
  first : (f.nodes ["dashboard"]).head? = some root
  grid : root.IsGrid

namespace Markup.Forest.IsBoard

variable {f : Forest} {root : Node}

theorem wellFormed_root (h : f.IsBoard root) : root.content.WellFormed :=
  wellFormed_of_mem_nodes h.wellFormed (List.mem_of_mem_head? h.first)

/-- **Its widgets.** -/
theorem widgets (h : f.IsBoard root) : (Dashboard.parse f.chars).widgets =
    (root.content.rowParts.flatMap RowPart.widgets ++ root.placedWidgets).map root.dress := by
  obtain ⟨problems, hparse⟩ := parse_grid h.wellFormed h.first h.grid h.markup h.untagged
  rw [hparse]
  exact widgets_dashboard root

/-- **Its groups.** -/
theorem layout (h : f.IsBoard root) : (Dashboard.parse f.chars).canvas.layout =
    .grid (Placement.gridColumns root.attrs) root.attrs.gapX? root.attrs.gapY? root.groups := by
  obtain ⟨problems, hparse⟩ := parse_grid h.wellFormed h.first h.grid h.markup h.untagged
  rw [hparse]
  exact layout_dashboard root

end Markup.Forest.IsBoard

end DashboardMarkup
