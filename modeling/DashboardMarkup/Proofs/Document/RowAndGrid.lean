import DashboardMarkup.Proofs.Document.Place

/-!
# Rows and grids

Two ways of laying out read widgets: in rows, and directly on a grid. Both make the same widget of an element,
wherever it stands: a row adds the id of the row and the markup before the element, a grid its columns and widths,
and all else is the same. So are the problems of the element, or the fault that makes its document unreadable.

* `WrittenElement.IsWidget.alike`: the two readers, in any two documents.
* `Dashboard.row_and_grid_agree`: whole documents, one with the element in a row and one with it on a grid.
-/

namespace DashboardMarkup

open Markup Reading
open Text (size)

/-! ## Readings that agree -/

/-- Two readings tell the same of one widget: both stop with the same words, or both give it or none, changed in one
of them, and note the same in the same order. -/
def Reading.Agree (change : Widget → Widget) : Reading (Option Widget) → Reading (Option Widget) → Prop
  | .error fault, .error fault' => fault.message = fault'.message
  | .ok (made, notes), .ok (made', notes') =>
    made = made'.map change ∧ notes.map Note.cause = notes'.map Note.cause
  | _, _ => False

/-- **A row and a grid read an element alike**, whatever stands around it in the one document and in the other. -/
theorem Markup.WrittenElement.IsWidget.alike {name : String} {v : WrittenElement} (h : v.IsWidget name)
    {before behind : List Char} {lead : Span} {text : List Char}
    (hlead : lead.text (before ++ (v.text ++ behind)) = .ok text) (before' behind' : List Char) (row : String) :
    Agree (Widget.inRow row (nonempty? (String.ofList (Text.trim text))))
      (Widget.ofRowElement (before ++ (v.text ++ behind)) row lead (v.element name (size before)))
      (Widget.ofGridElement (before' ++ (v.text ++ behind')) none (v.element name (size before'))) := by
  rw [Widget.ofRowElement_eq _ _ _ none, hlead, lift_ok, pure_bind, h.ofGridElement, h.ofGridElement]
  cases v.reading name with
  | error fault => exact (fault.message_moved _).trans (fault.message_moved _).symm
  | ok found =>
    obtain ⟨made, notes⟩ := found
    refine ⟨rfl, ?_⟩
    show (notes.map (Note.moved _) ++ []).map Note.cause = _
    rw [List.append_nil, cause_moved, cause_moved]

/-! ## Documents -/

/-- **Two documents show the same of an element** in their places, one in a row and one on a grid: both are unreadable
for the same reason, or they show the same widget, or none, with the same problems in the same order. The widget in
the row differs in the id of the row and the markup before it. -/
def RowPlace.AgreesOn (p : RowPlace) (s : Shell) (v : WrittenElement) : Prop :=
  (∃ inRow onGrid,
    Dashboard.read (p.document (some v)).text = .error inRow ∧
    Dashboard.read (s.document (some v)).text = .error onGrid ∧ inRow.cause.message = onGrid.cause.message) ∨
  ∃ inRow onGrid about,
    Dashboard.read (p.document (some v)).text = .ok inRow ∧ Dashboard.read (s.document (some v)).text = .ok onGrid ∧
    onGrid.widgets.length ≤ 1 ∧ inRow.widgets = onGrid.widgets.map (Widget.inRow p.rowId p.leadText) ∧
    inRow.problems.map Problem.cause =
      (Dashboard.parse (p.document none).text).problems.map Problem.cause ++ about ∧
    onGrid.problems.map Problem.cause =
      (Dashboard.parse (s.document none).text).problems.map Problem.cause ++ about

/-- **A row and a grid agree**: their readers do wherever the element stands, and so do whole documents. -/
theorem Dashboard.row_and_grid_agree {name : String} {v : WrittenElement} (hv : v.IsWidget name) {p : RowPlace}
    (hp : p.Proper) {s : Shell} (hs : s.OnGrid)
    (htheme : p.shell.dashboard.meant.text? "theme" = s.dashboard.meant.text? "theme") :
    (∀ (before behind before' behind' : List Char) (row : String) (lead : Span) (text : List Char),
      lead.text (before ++ (v.text ++ behind)) = .ok text →
      Reading.Agree (Widget.inRow row (nonempty? (String.ofList (Text.trim text))))
        (Widget.ofRowElement (before ++ (v.text ++ behind)) row lead (v.element name (size before)))
        (Widget.ofGridElement (before' ++ (v.text ++ behind')) none (v.element name (size before')))) ∧
    p.AgreesOn s v := by
  refine ⟨fun before behind before' behind' row lead text hlead => hv.alike hlead before' behind' row, ?_⟩
  cases hmade : v.reading name with
  | error fault =>
    obtain ⟨inRow, hrow, hrowMessage⟩ := hp.shows.read_error hv hmade
    obtain ⟨onGrid, hgrid, hgridMessage⟩ := hs.shows.read_error hv hmade
    exact .inl ⟨inRow, onGrid, hrow, hgrid, hrowMessage.trans hgridMessage.symm⟩
  | ok found =>
    obtain ⟨made, notes⟩ := found
    obtain ⟨rowRest, hreadRow⟩ := hp.shows.exists_read
    obtain ⟨gridRest, hreadGrid⟩ := hs.shows.exists_read
    obtain ⟨rowProblems, hrow, hrowCauses⟩ := hreadRow hv hmade
    obtain ⟨gridProblems, hgrid, hgridCauses⟩ := hreadGrid hv hmade
    refine .inr ⟨_, _, notes.map Note.cause, hrow, hgrid, ?_, ?_, hrowCauses, hgridCauses⟩
    · rw [length_dressed]
      cases made <;> simp
    · simp only [List.map_id, htheme, dressed_map (Widget.unnoticed_inRow p.rowId p.leadText)]

/-- A widget with no place of its own, a block that is refused and tokens. -/
def misfitting : WrittenElement :=
  .paired (.rendered "kpi" [⟨"id", "k"⟩, ⟨"title", "A & B"⟩, ⟨"span-d", "0"⟩] [])
    "<config>\x7b\"unit\":1\x7d</config><styling tw=\"kpi:unit:R$ nonsense\"/>".toList ⟨"kpi".toList, []⟩

theorem Dashboard.row_and_grid_agree_misfitting :
    misfitting.IsWidget "kpi" ∧ greetedRow.Proper ∧ themedGrid.OnGrid ∧ greetedRow.rowId = "r" ∧
      greetedRow.leadText = some "<p>Hi</p>" ∧ greetedRow.AgreesOn themedGrid misfitting := by
  have hv : misfitting.IsWidget "kpi" :=
    ⟨by decide, by decide, by decide,
      WrittenElement.closed_paired (by decide) (by decide) (by decide) (by decide +kernel), by decide +kernel,
      by decide +kernel⟩
  have hid : greetedRow.row.meant = [⟨"id", "r"⟩, ⟨"cols-d", "2"⟩] := meant_rendered _ _ _
  refine ⟨hv, proper_greetedRow, onGrid_themedGrid, by rw [RowPlace.rowId, hid]; decide, by decide,
    (row_and_grid_agree hv proper_greetedRow onGrid_themedGrid ?_).2⟩
  rw [meant_greetedRow, meant_themedGrid]
  decide

end DashboardMarkup
