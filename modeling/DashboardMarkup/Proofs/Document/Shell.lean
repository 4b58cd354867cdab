import DashboardMarkup.Document.Dashboard
import DashboardMarkup.Proofs.Document.Frame
import DashboardMarkup.Proofs.Document.Moved
import DashboardMarkup.Proofs.Document.Whole
import DashboardMarkup.Proofs.Markup.WrittenElement
import DashboardMarkup.Proofs.Template.Untagged

/-!
# Documents with a place on a grid

A dashboard without heading, sections, style blocks and groups, in which one element may stand between two texts.
What such a document makes is what its tag says and what its layout makes; a grid makes what the element makes.

* `Root.Bare`, `readDocument_bare`: what a dashboard says that holds nothing but its layout.
* `WrittenElement.IsWidget`: the elements that are put into such a place.
* `Shell.Proper.readDocument`: what a dashboard around an element makes is what its layout makes.
* `Shell.OnGrid.readGrid`: what a grid makes.
-/

namespace DashboardMarkup

open Markup Reading
open Text (size lower)

/-! ## Readings behind notes -/

namespace Reading

variable {α β : Type}

/-- A reading behind some notes. -/
def behind (notes : List Note) (x : Reading α) : Reading α :=
  andThen (.ok ((), notes)) fun _ => x

theorem bind_of_eq_ok {x : Reading α} {a : α} {notes : List Note} (h : x = .ok (a, notes)) (f : α → Reading β) :
    x >>= f = (f a).behind notes := by
  rw [h]
  rfl

theorem behind_bind (notes : List Note) (x : Reading α) (f : α → Reading β) :
    x.behind notes >>= f = (x >>= f).behind notes :=
  andThen_assoc _ _ _

theorem behind_behind (first second : List Note) (x : Reading α) :
    (x.behind second).behind first = x.behind (first ++ second) := by
  cases x with
  | error fault => rfl
  | ok found =>
    show Except.ok (found.1, first ++ (second ++ found.2)) = Except.ok (found.1, first ++ second ++ found.2)
    rw [List.append_assoc]

end Reading

/-! ## Dashboards that hold nothing but their layout -/

namespace Heading

/-- The heading that the attributes of a dashboard give, which begins at `start`. -/
def readTitles (attrs : Attributes) (start : Nat) : Reading (Option Heading) :=
  if (attrs.text? "title").isNone && (attrs.text? "subtitle").isNone then return none
  else do
    Reading.note .titleAttributes start
    return some (ofTitles (attrs.text? "title") (attrs.text? "subtitle"))

theorem read_of_find {doc : List Char} {body : Span} (h : find doc body ["header"] = .ok []) (attrs : Attributes)
    (start : Nat) : read doc attrs start body = readTitles attrs start := by
  have hfirst : findFirst doc body "header" = .ok none := by
    unfold findFirst
    rw [h]
    rfl
  unfold read
  rw [hfirst, lift_ok, pure_bind]
  rfl

end Heading

namespace Root

/-- A dashboard without heading, sections and style blocks of its own. -/
structure Bare (doc : List Char) (body : Span) : Prop where
  header : Markup.find doc body ["header"] = .ok []
  sections : Markup.find doc body ["section"] = .ok []
  styles : ∃ found, Markup.find doc body CanvasStyle.scopeNames = .ok found ∧ ∀ e ∈ found, e.name ≠ "style"

/-- What the tag of a dashboard says of its heading, its period and its layout. -/
def opening (attrs : Attributes) (start : Nat) : Reading (Option Heading × Option DateRange × LayoutMode) := do
  let heading ← Heading.readTitles attrs start
  let period ← DateRange.read attrs start heading
  let mode ← Placement.readMode attrs start
  return (heading, period, mode)

/-- The dashboard that a tag and a layout make. -/
def dashboard (attrs : Attributes) (heading : Option Heading) (period : Option DateRange) (placement : Placement) :
    Dashboard :=
  let d : Dashboard :=
    { widgets := placement.widgets
      canvas :=
        { Canvas.ofAttributes attrs with
          layout := placement.layout
          sections := []
          style := .ofAttributes attrs }
      heading, period }
  ((attrs.text? "theme").map d.withTheme).getD d

end Root

theorem CanvasStyle.readBlocks_of_find {doc : List Char} {body : Span} {found : List Element}
    (h : find doc body scopeNames = .ok found) (hstyle : ∀ e ∈ found, e.name ≠ "style") :
    readBlocks doc body = pure [] := by
  have hnone : found.filter (·.name == "style") = [] :=
    List.filter_eq_nil_iff.mpr fun e he heq => hstyle e he (beq_iff_eq.mp heq)
  unfold readBlocks
  rw [h, lift_ok, pure_bind, hnone]
  rfl

theorem RowPart.ofSections_of_find {doc : List Char} {body : Span} (h : find doc body ["section"] = .ok []) :
    ofSections doc body = pure [] := by
  unfold ofSections
  rw [h, lift_ok, pure_bind]
  rfl

/-- **What a bare dashboard makes**: what its tag says, and its layout. -/
theorem readDocument_bare {doc : List Char} {root : Root} (hroot : Root.find doc = .ok root)
    (h : Root.Bare doc root.body) :
    Dashboard.readDocument doc = Root.opening root.attrs root.start >>= fun opening =>
      Placement.read doc root.attrs root.body opening.2.2 >>= fun placement =>
        pure (Root.dashboard root.attrs opening.1 opening.2.1 placement) := by
  obtain ⟨found, hfound, hstyle⟩ := h.styles
  unfold Dashboard.readDocument Root.opening
  simp only [hroot, lift_ok, Heading.read_of_find h.header, CanvasStyle.readBlocks_of_find hfound hstyle,
    RowPart.ofSections_of_find h.sections, bind_assoc, pure_bind]
  congr 1
  funext heading
  congr 1
  funext period
  congr 1
  funext mode
  congr 1
  funext placement
  unfold Root.dashboard
  cases root.attrs.text? "theme" <;> rfl

/-- A dashboard with some text between its tags is the root of the document that consists of it. -/
theorem Root.find_paired {tag : WrittenTag} {inner : List Char} {close : WrittenClose}
    (h : (WrittenElement.paired tag inner close).Whole "dashboard") :
    Root.find (WrittenElement.paired tag inner close).text = .ok ⟨tag.meant, 0, inside 0 tag inner⟩ := by
  have hfirst : findFirst (WrittenElement.paired tag inner close).text
      ⟨0, size (WrittenElement.paired tag inner close).text⟩ "dashboard" =
        .ok (some ((WrittenElement.paired tag inner close).element "dashboard" 0)) := by
    unfold findFirst
    rw [h.find_text (by decide) (by simp [WrittenTag.nameIn?, h.named])]
    rfl
  unfold Root.find
  simp only [hfirst, bind, Except.bind]
  rfl

/-- What the tag of a dashboard says gives its layout, if its mode is known. -/
theorem exists_opening {attrs : Attributes} {start : Nat} {mode : LayoutMode}
    (h : (Placement.readMode attrs start).Gives mode) :
    ∃ heading period, (Root.opening attrs start).Gives (heading, period, mode) := by
  have hheading : ∃ heading, (Heading.readTitles attrs start).Gives heading := by
    unfold Heading.readTitles
    split
    · exact ⟨_, gives_pure _⟩
    · exact ⟨_, (gives_note _ _).bind (gives_pure _)⟩
  obtain ⟨heading, hheading⟩ := hheading
  obtain ⟨period, hperiod⟩ := exists_period attrs heading
  exact ⟨heading, period, hheading.bind ((hperiod start).bind (h.map fun mode => (heading, period, mode)))⟩

/-! ## Elements that are put into a place -/

/-- The elements that a dashboard is made of. -/
def partNames : List String :=
  "dashboard" :: CanvasStyle.scopeNames

/-- Those that a widget would not stand in as it does alone. -/
def placeNames : List String :=
  ["row", "group", "column", "section", "header", "dashboard"]

namespace Markup.WrittenElement

/-- **An element that may make a widget**: it closes, whatever blocks it holds, and there are neither comments in
it nor tags of what widgets stand in, nor opening marks of a template. -/
structure IsWidget (name : String) (v : WrittenElement) : Prop where
  known : name ∈ widgetNames
  readable : v.tag.Readable
  named : lower v.tag.name = lower name.toList
  closed : v.Closed name
  free : FreeOf placeNames v.text
  untagged : Template.Untagged v.text

namespace IsWidget

variable {name : String} {v : WrittenElement}

theorem whole (h : v.IsWidget name) : v.Whole name :=
  ⟨h.readable, h.named, h.closed⟩

theorem unbroken (h : v.IsWidget name) : Unbroken name :=
  (show ∀ n ∈ widgetNames, Unbroken n by decide) name h.known

theorem nameIn?_widgetNames (h : v.IsWidget name) : v.tag.nameIn? widgetNames = some name :=
  nameIn?_of_named h.named ((show ∀ n ∈ widgetNames,
    (widgetNames.find? fun m => lower n.toList == lower m.toList) = some n by decide) name h.known)

theorem nameIn?_scopeNames (h : v.IsWidget name) : v.tag.nameIn? CanvasStyle.scopeNames = some name :=
  nameIn?_of_named h.named ((show ∀ n ∈ widgetNames,
    (CanvasStyle.scopeNames.find? fun m => lower n.toList == lower m.toList) = some n by decide) name h.known)

theorem name_ne_style (h : v.IsWidget name) : name ≠ "style" :=
  (show ∀ n ∈ widgetNames, n ≠ "style" by decide) name h.known

end IsWidget

/-- The widget that an element makes by itself, as one on a grid. -/
def reading (name : String) (v : WrittenElement) : Reading (Option Widget) :=
  Widget.ofGridElement v.text none (v.element name 0)

/-- What an element makes further on, if there is one. -/
def readingAt (name : String) (offset : Nat) : Option WrittenElement → Reading (List Widget)
  | none => pure []
  | some v => do
    let made ← (v.reading name).moved offset
    return made.toList

/-- **Where it stands an element makes what it makes by itself.** -/
theorem IsWidget.ofGridElement {name : String} {v : WrittenElement} (h : v.IsWidget name)
    (before behind : List Char) :
    Widget.ofGridElement (before ++ (v.text ++ behind)) none (v.element name (size before)) =
      (v.reading name).moved (size before) := by
  have hmoved := Widget.ofGridElement_moved before behind none (h.whole.sited h.unbroken)
  rwa [moved_element, Nat.add_zero] at hmoved

end Markup.WrittenElement

/-! ## A dashboard around an element -/

/-- The tags of a dashboard, and two texts between them. -/
structure Shell where
  dashboard : WrittenTag
  lead : List Char
  tail : List Char
  close : WrittenClose

namespace Shell

/-- The dashboard with an element between its texts, or without one. -/
def document (s : Shell) (v? : Option WrittenElement) : WrittenElement :=
  .paired s.dashboard (around s.lead v? s.tail) s.close

/-- Its content. -/
def body (s : Shell) (v? : Option WrittenElement) : Span :=
  inside 0 s.dashboard (around s.lead v? s.tail)

/-- Where the element begins. -/
def offset (s : Shell) : Nat :=
  size (s.dashboard.text ++ ['>']) + size s.lead

/-- **The tags are what they should be, and the texts hold no parts of a dashboard.** -/
structure Proper (s : Shell) : Prop where
  readable : s.dashboard.Readable
  named : lower s.dashboard.name = lower "dashboard".toList
  close : s.close.Readable
  closed : lower s.close.name = lower "dashboard".toList
  ahead : FreeOf partNames s.lead
  behind : FreeOf partNames s.tail

/-- What a shell needs to know of the element in it, or of its texts if there is none. -/
structure Holds (s : Shell) (name : String) (v? : Option WrittenElement) : Prop where
  whole : ∀ v ∈ v?, v.Whole name
  scope : ∀ v ∈ v?, v.tag.nameIn? CanvasStyle.scopeNames = some name
  free : ∀ v ∈ v?, FreeOf ["header", "section", "dashboard"] v.text
  style : ∀ v ∈ v?, name ≠ "style"
  joined : v? = none → FreeOf partNames (s.lead ++ s.tail)

variable {s : Shell} {name : String} {v? : Option WrittenElement}

theorem Proper.surround (hs : s.Proper) (hv : s.Holds name v?) : Surround partNames s.lead v? s.tail :=
  ⟨hs.ahead, hs.behind, hv.joined⟩

/-- Tags that stand neither in the texts nor in the element. -/
theorem Proper.find_nothing (hs : s.Proper) (hv : s.Holds name v?) {n : String} (hn : n ∈ partNames)
    (hfree : ∀ v ∈ v?, FreeOf [n] v.text) : find (s.document v?).text (s.body v?) [n] = .ok [] := by
  have hunbroken : ∀ m ∈ [n], Unbroken m := by
    simpa using (show ∀ m ∈ partNames, Unbroken m by decide) n hn
  have hpart : ∀ m ∈ [n], m ∈ partNames := by simpa using hn
  have hinner := ((hs.surround hv).mono hpart).free hunbroken hfree
  have hfind := find_inside_of_free s.dashboard s.close hunbroken hinner [] []
  rwa [List.append_nil, List.nil_append] at hfind

/-- **The element.** -/
theorem Proper.find_element (hs : s.Proper) (hv : s.Holds name v?) {names : List String}
    (hnames : ∀ n ∈ names, n ∈ partNames) (hname : ∀ v ∈ v?, v.tag.nameIn? names = some name) :
    find (s.document v?).text (s.body v?) names = .ok (v?.toList.map (WrittenElement.element name s.offset)) := by
  have hunbroken : ∀ n ∈ names, Unbroken n := fun n hn =>
    (show ∀ n ∈ partNames, Unbroken n by decide) n (hnames n hn)
  have hfind := ((hs.surround hv).mono hnames).find_inside s.dashboard s.close hunbroken
    (fun v hmem => ⟨hv.whole v hmem, hname v hmem⟩) [] []
  rwa [List.append_nil, List.nil_append] at hfind

theorem Proper.root (hs : s.Proper) (hv : s.Holds name v?) :
    Root.find (s.document v?).text = .ok ⟨s.dashboard.meant, 0, s.body v?⟩ := by
  have hinner := ((hs.surround hv).mono (show ∀ n ∈ ["dashboard"], n ∈ partNames by decide)).free (by decide)
    fun v hmem => (hv.free v hmem).mono (by decide)
  exact Root.find_paired ⟨hs.readable, hs.named, WrittenElement.closed_paired (by decide) hs.close hs.closed hinner⟩

theorem Proper.bare (hs : s.Proper) (hv : s.Holds name v?) : Root.Bare (s.document v?).text (s.body v?) where
  header := hs.find_nothing hv (by decide) fun v hmem => (hv.free v hmem).mono (by decide)
  sections := hs.find_nothing hv (by decide) fun v hmem => (hv.free v hmem).mono (by decide)
  styles := by
    refine ⟨_, hs.find_element hv (fun n hn => List.mem_cons_of_mem _ hn) hv.scope, fun e he => ?_⟩
    obtain ⟨v, hmem, rfl⟩ := List.mem_map.mp he
    rw [WrittenElement.name_element]
    exact hv.style v (Option.mem_toList.mp hmem)

/-- **What the tag of the dashboard says, then what its layout makes.** -/
theorem Proper.readDocument (hs : s.Proper) {mode : LayoutMode}
    (hmode : (Placement.readMode s.dashboard.meant 0).Gives mode) :
    ∃ heading period notes, ∀ {name v?}, s.Holds name v? →
      Dashboard.readDocument (s.document v?).text =
        (Placement.read (s.document v?).text s.dashboard.meant (s.body v?) mode >>= fun placement =>
          pure (Root.dashboard s.dashboard.meant heading period placement)).behind notes := by
  obtain ⟨heading, period, notes, hopening⟩ := exists_opening hmode
  refine ⟨heading, period, notes, fun hv => ?_⟩
  rw [readDocument_bare (hs.root hv) (hs.bare hv), bind_of_eq_ok hopening]

/-- Where the element stands in the document. -/
theorem exists_text (s : Shell) (v : WrittenElement) :
    ∃ before after, (s.document (some v)).text = before ++ (v.text ++ after) ∧ size before = s.offset := by
  refine ⟨s.dashboard.text ++ '>' :: s.lead, s.tail ++ s.close.text, ?_, ?_⟩
  · simp [document, WrittenElement.text, around]
  · simp [offset, Nat.add_assoc]

end Shell

/-! ## A place on a grid -/

namespace Shell

/-- **A place on a grid**, with nothing else in the dashboard. -/
structure OnGrid (s : Shell) : Prop extends s.Proper where
  joined : FreeOf partNames (s.lead ++ s.tail)
  untagged : Template.Untagged (s.document none).text
  mode : (Placement.readMode s.dashboard.meant 0).Gives .grid

variable {s : Shell} {name : String} {v? : Option WrittenElement}

theorem OnGrid.holds (hs : s.OnGrid) (hv : ∀ v ∈ v?, v.IsWidget name) : s.Holds name v? where
  whole v hmem := (hv v hmem).whole
  scope v hmem := (hv v hmem).nameIn?_scopeNames
  free v hmem := (hv v hmem).free.mono (by decide)
  style v hmem := (hv v hmem).name_ne_style
  joined _ := hs.joined

end Shell

/-- Where no group is left out, the widgets outside all groups are those of the whole span. -/
theorem mapM_readLoose (doc : List Char) (span : Span) :
    ((span.without []).mapM (Placement.readLoose doc) >>= fun loose => pure loose.flatten) =
      Placement.readLoose doc span := by
  unfold Span.without
  split
  · simp only [List.mapM_cons, List.mapM_nil, bind_assoc, pure_bind, List.flatten_cons, List.flatten_nil,
      List.append_nil, bind_pure]
  · next hempty =>
    have hnone : find doc span widgetNames = .ok [] := by
      unfold Markup.find
      simp only
      rw [if_neg (by omega)]
    unfold Placement.readLoose
    rw [hnone, lift_ok, pure_bind]
    rfl

/-- The widget that one element of a grid makes. -/
theorem Widget.ofGridElements_singleton (doc : List Char) (column : Option Nat) (e : Element) :
    ofGridElements doc column [e] = ofGridElement doc column e >>= fun made => pure made.toList := by
  unfold ofGridElements
  simp only [List.mapM_cons, List.mapM_nil, bind_assoc, pure_bind]
  congr 1

/-- **A grid reads the element in its place.** -/
theorem Shell.OnGrid.readGrid {s : Shell} (hs : s.OnGrid) {name : String} {v? : Option WrittenElement}
    (hv : ∀ v ∈ v?, v.IsWidget name) (attrs : Attributes) :
    Placement.readGrid (s.document v?).text attrs (s.body v?) =
      WrittenElement.readingAt name s.offset v? >>= fun widgets =>
        pure ⟨.grid (Placement.gridColumns attrs) attrs.gapX? attrs.gapY? [], widgets⟩ := by
  have hgroups := hs.find_nothing (hs.holds hv) (n := "group") (by decide) fun v hmem =>
    (hv v hmem).free.mono (by decide)
  have hwidgets := hs.find_element (hs.holds hv) (show ∀ n ∈ widgetNames, n ∈ partNames by decide) fun v hmem =>
    (hv v hmem).nameIn?_widgetNames
  have hloose : Placement.readLoose (s.document v?).text (s.body v?) = WrittenElement.readingAt name s.offset v? := by
    unfold Placement.readLoose
    rw [hwidgets, lift_ok, pure_bind]
    cases v? with
    | none => rfl
    | some v =>
      obtain ⟨before, after, htext, hoffset⟩ := s.exists_text v
      rw [Option.toList_some, List.map_singleton, Widget.ofGridElements_singleton, htext, ← hoffset,
        (hv v rfl).ofGridElement before after]
      rfl
  unfold Placement.readGrid
  simp only [hgroups, lift_ok, pure_bind, List.mapM_nil, List.map_nil, List.flatMap_nil, List.filterMap_nil,
    List.nil_append]
  rw [← hloose, ← mapM_readLoose, bind_assoc]
  simp only [pure_bind]

end DashboardMarkup
