import DashboardMarkup.Proofs.Document.Shell
import DashboardMarkup.Proofs.Markup.Rendered

/-!
# Documents with a place for one widget

A dashboard may have a place for an element in a row as well as on a grid. In both layouts the document shows what
the element makes by itself, and notes about the element come behind all others.

* `RowPlace.Proper.exists_readRows`: what a row makes of the element in it.
* `Shows`: documents that show what the element in their place makes; `Shows.exists_read`: what they are read as.
* `Shell.OnGrid.shows`, `RowPlace.Proper.shows`: those with a place on a grid and in a row.
-/

namespace DashboardMarkup

open Markup Reading
open Text (size lower)

/-! ## A place in a row -/

/-- A dashboard around a row, and two texts in the row, between which an element may stand. -/
structure RowPlace where
  shell : Shell
  row : WrittenTag
  lead : List Char
  tail : List Char
  close : WrittenClose

namespace RowPlace

/-- The row with an element between its texts, or without one. -/
def rowWith (p : RowPlace) (v? : Option WrittenElement) : WrittenElement :=
  .paired p.row (around p.lead v? p.tail) p.close

/-- The document. -/
def document (p : RowPlace) (v? : Option WrittenElement) : WrittenElement :=
  p.shell.document (some (p.rowWith v?))

/-- The id of the row. -/
def rowId (p : RowPlace) : String :=
  (p.row.meant.text? "id").getD ("row-" ++ toString 1)

/-- The markup before the element. -/
def leadText (p : RowPlace) : Option String :=
  nonempty? (String.ofList (Text.trim p.lead))

/-- Where the element begins. -/
def offset (p : RowPlace) : Nat :=
  p.shell.offset + size (p.row.text ++ ['>']) + size p.lead

/-- **A place in a row**, with nothing else in the dashboard. -/
structure Proper (p : RowPlace) : Prop where
  shell : p.shell.Proper
  readable : p.row.Readable
  plain : p.row.Plain
  named : lower p.row.name = lower "row".toList
  close : p.close.Readable
  closed : lower p.close.name = lower "row".toList
  ahead : FreeOf partNames p.lead
  behind : FreeOf partNames p.tail
  joined : FreeOf partNames (p.lead ++ p.tail)
  untagged : Template.Untagged (p.document none).text
  mode : (Placement.readMode p.shell.dashboard.meant 0).Gives .perRow

namespace Proper

variable {p : RowPlace} {name : String} {v? : Option WrittenElement}

theorem surround (hp : p.Proper) (v? : Option WrittenElement) : Surround partNames p.lead v? p.tail :=
  ⟨hp.ahead, hp.behind, fun _ => hp.joined⟩

/-- What stands in the row is free of the tags that the element does not hold. -/
theorem free (hp : p.Proper) (hv : ∀ v ∈ v?, v.IsWidget name) {names : List String}
    (hnames : ∀ n ∈ names, n ∈ partNames ∧ n ∈ placeNames) : FreeOf names (around p.lead v? p.tail) :=
  ((hp.surround v?).mono fun n hn => (hnames n hn).1).free
    (fun n hn => (show ∀ n ∈ partNames, Unbroken n by decide) n (hnames n hn).1)
    fun v hmem => (hv v hmem).free.mono fun n hn => (hnames n hn).2

theorem holds (hp : p.Proper) (hv : ∀ v ∈ v?, v.IsWidget name) : p.shell.Holds "row" (some (p.rowWith v?)) where
  whole := by
    rintro _ ⟨⟩
    exact ⟨hp.readable, hp.named, WrittenElement.closed_paired (by decide) hp.close hp.closed (hp.free hv (by decide))⟩
  scope := by
    rintro _ ⟨⟩
    exact WrittenElement.nameIn?_of_named hp.named (by decide)
  free := by
    rintro _ ⟨⟩
    exact WrittenElement.free_paired (by decide) hp.readable hp.plain hp.named hp.close hp.closed
      (hp.free hv (by decide))
  style _ _ := by decide
  joined h := by cases h

end Proper

end RowPlace

/-- What the tag of a row says does not depend on what stands in the row. -/
theorem RowPart.exists_readTag (attrs : Attributes) (start : Nat) :
    ∃ columns notes, ∀ e : Element, e.attrs = attrs → e.start = start →
      ∀ {β : Type} (f : String → Breakpoints Nat → Reading β),
        (readId 1 e >>= fun id => readColumns id e >>= f id) =
          (f ((attrs.text? "id").getD ("row-" ++ toString 1)) columns).behind notes := by
  have hid : ∃ notes, ∀ e : Element, e.attrs = attrs → e.start = start →
      readId 1 e = .ok ((attrs.text? "id").getD ("row-" ++ toString 1), notes) := by
    unfold readId
    cases hattr : attrs.text? "id" with
    | none =>
      refine ⟨[⟨.rowWithoutId ("row-" ++ toString 1), start⟩], fun e he hstart => ?_⟩
      rw [he, hattr, hstart]
      rfl
    | some id =>
      refine ⟨[], fun e he _ => ?_⟩
      rw [he, hattr]
      rfl
  obtain ⟨first, hid⟩ := hid
  have hcolumns : ∀ id, ∃ columns notes, ∀ e : Element, e.attrs = attrs → e.start = start →
      readColumns id e = .ok (columns, notes) := by
    intro id
    let missing := ["cols-d", "cols-t", "cols-m"].filter fun key => (attrs.positive? key).isNone
    let at? (key : String) := (attrs.positive? key).getD 1
    refine ⟨⟨at? "cols-d", at? "cols-t", at? "cols-m"⟩,
      if !missing.isEmpty then [⟨.rowWithoutColumns id missing, start⟩] else [], fun e he hstart => ?_⟩
    unfold readColumns
    simp only [he, hstart]
    split <;> rfl
  obtain ⟨columns, second, hcolumns⟩ := hcolumns ((attrs.text? "id").getD ("row-" ++ toString 1))
  refine ⟨columns, first ++ second, fun e he hstart β f => ?_⟩
  rw [bind_of_eq_ok (hid e he hstart), bind_of_eq_ok (hcolumns e he hstart), behind_behind]

namespace RowPlace

variable {p : RowPlace} {name : String} {v? : Option WrittenElement}

/-- Where the element stands in the document. -/
theorem exists_text (p : RowPlace) (v? : Option WrittenElement) :
    ∃ before after, (p.document v?).text = before ++ ((p.rowWith v?).text ++ after) ∧ size before = p.shell.offset :=
  p.shell.exists_text (p.rowWith v?)

/-- The text before the element. -/
theorem text_lead (before : List Char) (tag : WrittenTag) (lead after : List Char) :
    Span.text ⟨size before + size (tag.text ++ ['>']), size before + size (tag.text ++ ['>']) + size lead⟩
      (before ++ (tag.text ++ '>' :: (lead ++ after))) = .ok lead := by
  refine Span.text_eq_ok.mpr (Span.cut?_eq_some.mpr ⟨before ++ (tag.text ++ ['>']), after, by simp, ?_, ?_⟩)
  · exact Text.size_append _ _
  · rw [Text.size_append before]

/-- **The widgets of the row.** -/
theorem Proper.readWidgets (hp : p.Proper) (hv : ∀ v ∈ v?, v.IsWidget name) :
    (do
      let found ← (find (p.document v?).text (inside p.shell.offset p.row (around p.lead v? p.tail)) widgetNames :
        Except Fault (List Element))
      let widgets ← (withLeads (p.shell.offset + size (p.row.text ++ ['>'])) found).mapM fun (lead, w) =>
        Widget.ofRowElement (p.document v?).text p.rowId lead w
      return widgets.filterMap fun w => w : Reading (List Widget)) =
      WrittenElement.readingAt name p.offset v? >>= fun widgets =>
        pure (widgets.map (Widget.inRow p.rowId p.leadText)) := by
  obtain ⟨before, after, htext, hoffset⟩ := p.exists_text v?
  have hfind := ((hp.surround v?).mono (show ∀ n ∈ widgetNames, n ∈ partNames by decide)).find_inside p.row p.close
    (by decide) (fun v hmem => ⟨(hv v hmem).whole, (hv v hmem).nameIn?_widgetNames⟩) before after
  rw [hoffset, Text.size_append before, hoffset] at hfind
  have hdoc : find (p.document v?).text (inside p.shell.offset p.row (around p.lead v? p.tail)) widgetNames =
      .ok (v?.toList.map (WrittenElement.element name p.offset)) := by
    rw [htext]
    exact hfind
  rw [hdoc, lift_ok, pure_bind]
  cases v? with
  | none => rfl
  | some v =>
    have hlead : Span.text ⟨p.shell.offset + size (p.row.text ++ ['>']), p.offset⟩ (p.document (some v)).text =
        .ok p.lead := by
      have hsplit : (p.document (some v)).text =
          before ++ (p.row.text ++ '>' :: (p.lead ++ (v.text ++ (p.tail ++ (p.close.text ++ after))))) := by
        rw [htext]
        simp [rowWith, WrittenElement.text, around]
      rw [hsplit, offset, ← hoffset]
      exact text_lead before p.row p.lead _
    have hreading : Widget.ofGridElement (p.document (some v)).text none (v.element name p.offset) =
        (v.reading name).moved p.offset := by
      have hsplit : (p.document (some v)).text =
          (before ++ (p.row.text ++ '>' :: p.lead)) ++ (v.text ++ (p.tail ++ (p.close.text ++ after))) := by
        rw [htext]
        simp [rowWith, WrittenElement.text, around]
      have hsize : size (before ++ (p.row.text ++ '>' :: p.lead)) = p.offset := by
        simp [offset, hoffset, Nat.add_assoc]
      rw [hsplit, ← hsize]
      exact (hv v rfl).ofGridElement _ _
    simp only [Option.toList_some, List.map_singleton, withLeads, WrittenElement.start_element, List.mapM_cons,
      List.mapM_nil, bind_assoc, pure_bind, Widget.ofRowElement_eq _ _ _ none, hlead, lift_ok, hreading,
      WrittenElement.readingAt]
    congr 1
    funext made
    cases made <;> rfl

/-- **The row.** -/
theorem Proper.exists_ofRow (hp : p.Proper) :
    ∃ row notes, ∀ {name v?}, (∀ v ∈ v?, v.IsWidget name) →
      RowPart.ofRow (p.document v?).text 1 ((p.rowWith v?).element "row" p.shell.offset) =
        (WrittenElement.readingAt name p.offset v? >>= fun widgets =>
          pure ⟨p.rowId, row, widgets.map (Widget.inRow p.rowId p.leadText)⟩).behind notes := by
  obtain ⟨columns, notes, htag⟩ := RowPart.exists_readTag p.row.meant p.shell.offset
  let row := Row.ofAttributes p.row.meant columns (p.row.meant.text? "title")
  refine ⟨row, notes, fun {name v?} hv => ?_⟩
  have hattrs : ((p.rowWith v?).element "row" p.shell.offset).attrs = p.row.meant := WrittenElement.attrs_element _
  have hwidgets := congrArg (· >>= fun widgets => (pure ⟨p.rowId, row, widgets⟩ : Reading RowPart)) (hp.readWidgets hv)
  unfold RowPart.ofRow
  rw [if_pos (WrittenElement.closed_element _)]
  refine (htag _ hattrs (WrittenElement.start_element p.shell.offset) _).trans (congrArg (Reading.behind notes) ?_)
  simp only [bind_assoc, pure_bind] at hwidgets
  rw [← hwidgets, hattrs]
  rfl

/-- **A row reads the element in its place.** -/
theorem Proper.exists_readRows (hp : p.Proper) :
    ∃ layout notes, ∀ {name v?}, (∀ v ∈ v?, v.IsWidget name) →
      Placement.readRows (p.document v?).text (p.shell.body (some (p.rowWith v?))) =
        (WrittenElement.readingAt name p.offset v? >>= fun widgets =>
          pure ⟨layout, widgets.map (Widget.inRow p.rowId p.leadText)⟩).behind notes := by
  obtain ⟨row, notes, hpart⟩ := hp.exists_ofRow
  refine ⟨.rows [(p.rowId, row)], notes, fun {name v?} hv => ?_⟩
  have hrow : find (p.document v?).text (p.shell.body (some (p.rowWith v?))) ["row"] =
      .ok [(p.rowWith v?).element "row" p.shell.offset] := by
    refine hp.shell.find_element (hp.holds hv) (by decide) ?_
    rintro _ ⟨⟩
    exact WrittenElement.nameIn?_of_named hp.named (by decide)
  unfold Placement.readRows
  rw [hrow, lift_ok, pure_bind]
  simp only [List.zipIdx_cons, List.zipIdx_nil, List.mapM_cons, List.mapM_nil, hpart hv, behind_bind, bind_assoc,
    pure_bind, List.flatMap_cons, List.flatMap_nil, List.append_nil]
  rfl

end RowPlace

theorem Fault.message_moved (k : Nat) (fault : Fault) : (fault.moved k).message = fault.message := by
  cases fault <;> rfl

theorem cause_moved (k : Nat) (notes : List Note) : (notes.map (Note.moved k)).map Note.cause = notes.map Note.cause := by
  rw [List.map_map]
  rfl

/-! ## Documents with one place -/

/-- Widgets under a theme, if there is one. -/
def dressed (theme? : Option String) (widgets : List Widget) : List Widget :=
  (theme?.map fun name => Theme.applyToWidgets name widgets).getD widgets

/-- A theme may come before a change that it does not notice, or after. -/
theorem dressed_map {change : Widget → Widget} (h : Widget.Unnoticed change) (theme? : Option String)
    (widgets : List Widget) : dressed theme? (widgets.map change) = (dressed theme? widgets).map change := by
  unfold dressed Theme.applyToWidgets
  cases theme? with
  | none => rfl
  | some name =>
    simp only [Option.map_some, Option.getD_some]
    cases Theme.find? name with
    | none => rfl
    | some theme => simp only [List.map_map, Function.comp_def, h.fillWidget]

theorem length_dressed (theme? : Option String) (widgets : List Widget) :
    (dressed theme? widgets).length = widgets.length := by
  unfold dressed Theme.applyToWidgets
  cases theme? with
  | none => rfl
  | some name =>
    simp only [Option.map_some, Option.getD_some]
    cases Theme.find? name <;> simp

/-- A bare dashboard with some widgets has them under its theme. All else of it does not depend on them. -/
theorem Root.dashboard_eq (attrs : Attributes) (heading : Option Heading) (period : Option DateRange)
    (layout : Layout) (widgets : List Widget) :
    Root.dashboard attrs heading period ⟨layout, widgets⟩ =
      { Root.dashboard attrs heading period ⟨layout, []⟩ with widgets := dressed (attrs.text? "theme") widgets } := by
  unfold Root.dashboard dressed
  generalize attrs.text? "theme" = theme?
  cases theme? with
  | none => simp only [Option.map_none, Option.getD_none]
  | some name => simp only [Option.map_some, Option.getD_some, Dashboard.withTheme]

/-- **Documents that make of the element in their place what it makes by itself**, put into the layout and under a
theme. What is noted of it comes behind what is noted of the rest. -/
structure Shows (put : Widget → Widget) (theme? : Option String) (document : Option WrittenElement → List Char) :
    Prop where
  markup : ∀ v?, Dashboard.isMarkup (document v?) = true
  untagged : ∀ name v?, (∀ v ∈ v?, v.IsWidget name) → Template.Untagged (document v?)
  reads : ∃ (notes : List Note) (offset : Nat) (rest : Dashboard), ∀ name v?, (∀ v ∈ v?, v.IsWidget name) →
    Dashboard.readDocument (document v?) = (WrittenElement.readingAt name offset v? >>= fun widgets =>
      pure { rest with widgets := dressed theme? (widgets.map put) }).behind notes

namespace Shows

variable {put : Widget → Widget} {theme? : Option String} {document : Option WrittenElement → List Char}

/-- What stops the reading of the element makes the document unreadable. -/
theorem read_error (h : Shows put theme? document) {name : String} {v : WrittenElement} (hv : v.IsWidget name)
    {fault : Fault} (hfault : v.reading name = .error fault) :
    ∃ p, Dashboard.read (document (some v)) = .error p ∧ p.cause.message = fault.message := by
  have hv : ∀ w ∈ some v, w.IsWidget name := by
    rintro _ ⟨⟩
    exact hv
  obtain ⟨notes, offset, rest, hread⟩ := h.reads
  have hat : WrittenElement.readingAt name offset (some v) = stop (fault.moved offset) := by
    show (v.reading name).moved offset >>= _ = _
    rw [hfault]
    rfl
  have hread : Dashboard.readDocument (document (some v)) = stop (fault.moved offset) := by
    rw [hread name (some v) hv, hat]
    rfl
  refine ⟨Problem.ofFault (document (some v)) (fault.moved offset), ?_, fault.message_moved offset⟩
  unfold Dashboard.read Dashboard.ofDocument
  rw [Template.resolve_untagged (h.untagged name _ hv), if_pos (h.markup _), hread]
  rfl

/-- **The widget of the element is the only one**, and its problems come behind those of the document without it. All
else does not depend on the element. -/
theorem exists_read (h : Shows put theme? document) :
    ∃ rest : Dashboard, ∀ {name : String} {v : WrittenElement}, v.IsWidget name →
      ∀ {made : Option Widget} {notes : List Note}, v.reading name = .ok (made, notes) →
        ∃ problems, Dashboard.read (document (some v)) =
            .ok { rest with widgets := dressed theme? (made.toList.map put), problems } ∧
          problems.map Problem.cause =
            (Dashboard.parse (document none)).problems.map Problem.cause ++ notes.map Note.cause := by
  obtain ⟨before, offset, rest, hread⟩ := h.reads
  refine ⟨rest, fun {name v} hv {made notes} hmade => ?_⟩
  have hv : ∀ w ∈ some v, w.IsWidget name := by
    rintro _ ⟨⟩
    exact hv
  have hnone : ∀ w ∈ (none : Option WrittenElement), w.IsWidget name := by
    rintro _ ⟨⟩
  have hcauses : ∀ doc (ns : List Note), (ns.map (Problem.ofNote doc)).map Problem.cause = ns.map Note.cause := by
    intro doc ns
    rw [List.map_map]
    rfl
  have hempty : Dashboard.readDocument (document none) =
      .ok ({ rest with widgets := dressed theme? [] }, before ++ []) := hread name none hnone
  have hfull : Dashboard.readDocument (document (some v)) =
      .ok ({ rest with widgets := dressed theme? (made.toList.map put) },
        before ++ (notes.map (Note.moved offset) ++ [] ++ [])) := by
    have hat : WrittenElement.readingAt name offset (some v) =
        .ok (made.toList, notes.map (Note.moved offset) ++ []) := by
      show (v.reading name).moved offset >>= _ = _
      rw [hmade]
      rfl
    rw [hread name (some v) hv, hat]
    rfl
  have hwithout : (Dashboard.parse (document none)).problems.map Problem.cause = before.map Note.cause := by
    unfold Dashboard.parse Dashboard.read Dashboard.ofDocument
    rw [Template.resolve_untagged (h.untagged name _ hnone), if_pos (h.markup _), hempty]
    simp only [List.append_nil]
    exact hcauses _ _
  refine ⟨(before ++ (notes.map (Note.moved offset) ++ [] ++ [])).map (Problem.ofNote (document (some v))), ?_, ?_⟩
  · unfold Dashboard.read Dashboard.ofDocument
    rw [Template.resolve_untagged (h.untagged name _ hv), if_pos (h.markup _), hfull]
  · rw [hwithout, hcauses, List.append_nil, List.append_nil, List.map_append, cause_moved]

end Shows

theorem Markup.WrittenElement.isMarkup_text (v : WrittenElement) : Dashboard.isMarkup v.text = true := by
  cases v <;> rfl

/-- An element without opening marks brings none into a text. -/
theorem Markup.WrittenElement.untagged_append {v : WrittenElement} (hv : Template.Untagged v.text)
    {before behind : List Char} (h : Template.Untagged (before ++ behind)) :
    Template.Untagged (before ++ (v.text ++ behind)) := by
  obtain ⟨hbefore, hbehind, -⟩ := List.isChain_append.mp h
  have hrest : Template.Untagged (v.text ++ behind) := by
    refine List.isChain_append.mpr ⟨hv, hbehind, fun c hc _ _ heq => ?_⟩
    rw [v.getLast?_text, heq] at hc
    exact absurd (Option.some.inj hc) (by decide)
  refine List.isChain_append.mpr ⟨hbefore, hrest, fun _ _ d hd _ => ?_⟩
  rw [List.head?_append, v.head?_text] at hd
  obtain rfl : '<' = d := Option.some.inj hd
  decide

/-- An element in its place brings no opening marks into the document. -/
theorem Markup.untagged_around {lead tail before behind : List Char}
    (h : Template.Untagged (before ++ (around lead none tail ++ behind))) {v? : Option WrittenElement}
    (hv : ∀ v ∈ v?, Template.Untagged v.text) :
    Template.Untagged (before ++ (around lead v? tail ++ behind)) := by
  cases v? with
  | none => exact h
  | some v =>
    have hsplit : before ++ (around lead none tail ++ behind) = (before ++ lead) ++ (tail ++ behind) := by
      simp [around]
    rw [hsplit] at h
    have hfull := WrittenElement.untagged_append (hv v rfl) h
    simpa [around] using hfull

/-- **A dashboard on a grid shows its element.** -/
theorem Shell.OnGrid.shows {s : Shell} (hs : s.OnGrid) :
    Shows id (s.dashboard.meant.text? "theme") fun v? => (s.document v?).text where
  markup v? := (s.document v?).isMarkup_text
  untagged name v? hv := by
    have hsplit : ∀ v?, (s.document v?).text =
        (s.dashboard.text ++ ['>']) ++ (around s.lead v? s.tail ++ s.close.text) := by
      intro v?
      simp [Shell.document, WrittenElement.text]
    rw [hsplit]
    exact untagged_around (hsplit none ▸ hs.untagged) fun v hmem => (hv v hmem).untagged
  reads := by
    obtain ⟨heading, period, notes, hread⟩ := hs.toProper.readDocument hs.mode
    let layout := Layout.grid (Placement.gridColumns s.dashboard.meant) s.dashboard.meant.gapX?
      s.dashboard.meant.gapY? []
    refine ⟨notes, s.offset, Root.dashboard s.dashboard.meant heading period ⟨layout, []⟩, fun name v? hv => ?_⟩
    rw [hread (hs.holds hv)]
    unfold Placement.read
    rw [hs.readGrid hv, bind_assoc]
    simp only [pure_bind, List.map_id, ← Root.dashboard_eq, layout]

/-- **A dashboard with a row shows the element in the row.** -/
theorem RowPlace.Proper.shows {p : RowPlace} (hp : p.Proper) :
    Shows (Widget.inRow p.rowId p.leadText) (p.shell.dashboard.meant.text? "theme") fun v? =>
      (p.document v?).text where
  markup v? := (p.document v?).isMarkup_text
  untagged name v? hv := by
    have hsplit : ∀ v?, (p.document v?).text =
        (p.shell.dashboard.text ++ '>' :: (p.shell.lead ++ (p.row.text ++ ['>']))) ++
          (around p.lead v? p.tail ++ (p.close.text ++ (p.shell.tail ++ p.shell.close.text))) := by
      intro v?
      simp [RowPlace.document, RowPlace.rowWith, Shell.document, WrittenElement.text, around]
    rw [hsplit]
    exact untagged_around (hsplit none ▸ hp.untagged) fun v hmem => (hv v hmem).untagged
  reads := by
    obtain ⟨heading, period, before, hread⟩ := hp.shell.readDocument hp.mode
    obtain ⟨layout, notes, hrows⟩ := hp.exists_readRows
    refine ⟨before ++ notes, p.offset, Root.dashboard p.shell.dashboard.meant heading period ⟨layout, []⟩,
      fun name v? hv => ?_⟩
    show Dashboard.readDocument (p.shell.document (some (p.rowWith v?))).text = _
    rw [hread (hp.holds hv)]
    unfold Placement.read
    refine (congrArg (Reading.behind before) ?_).trans (behind_behind before notes _)
    refine (congrArg (· >>= _) (hrows hv)).trans ?_
    rw [behind_bind, bind_assoc]
    simp only [pure_bind, ← Root.dashboard_eq]

/-- A row behind some words, in a dashboard with a theme. -/
def greetedRow : RowPlace :=
  ⟨⟨.rendered "dashboard" [⟨"theme", "dark"⟩] [], "\n".toList, "\n".toList, ⟨"dashboard".toList, []⟩⟩,
    .rendered "row" [⟨"id", "r"⟩, ⟨"cols-d", "2"⟩] [], "<p>Hi</p> ".toList, "\n".toList, ⟨"row".toList, []⟩⟩

/-- A grid in a dashboard with this theme. -/
def themedGrid : Shell :=
  ⟨.rendered "dashboard" [⟨"layout-mode", "grid"⟩, ⟨"theme", "dark"⟩] [], "\n".toList, "\n".toList,
    ⟨"dashboard".toList, []⟩⟩

theorem meant_greetedRow : greetedRow.shell.dashboard.meant = [⟨"theme", "dark"⟩] :=
  meant_rendered _ _ _

theorem meant_themedGrid : themedGrid.dashboard.meant = [⟨"layout-mode", "grid"⟩, ⟨"theme", "dark"⟩] :=
  meant_rendered _ _ _

theorem proper_greetedRow : greetedRow.Proper :=
  ⟨⟨by decide, by decide, by decide, by decide, by decide, by decide⟩, by decide, by decide, by decide, by decide,
    by decide, by decide, by decide, by decide, by decide +kernel, [], by rw [meant_greetedRow]; rfl⟩

theorem onGrid_themedGrid : themedGrid.OnGrid :=
  ⟨⟨by decide, by decide, by decide, by decide, by decide, by decide⟩, by decide, by decide +kernel, [],
    by rw [meant_themedGrid]; rfl⟩

end DashboardMarkup
