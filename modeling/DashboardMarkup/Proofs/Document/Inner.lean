import DashboardMarkup.Proofs.Document.Shell

/-!
# Blocks one behind another

What a widget is filled in with stands in its blocks, and these stand between its tags. The text between the tags
may be cut in two where no block is open: the widget is then filled in from the first part and after that from the
second one.

* `Widget.fillFrom`: what the blocks in a text fill in.
* `Widget.fillFrom_append`: one text behind another.
* `Widget.readBlocks_paired`, `WrittenElement.reading_paired`: an element fills in what the text between its tags does.
-/

namespace DashboardMarkup

open Markup Reading
open Text (size)

namespace Widget

theorem unbroken_blockNames : ∀ n ∈ blockNames, Unbroken n := by
  decide

/-- The widget with what the blocks in a text fill in. -/
def fillFrom (w : Widget) (text : List Char) : Reading Widget := do
  let blocks ← (find text ⟨0, size text⟩ blockNames : Except Fault (List Element))
  blocks.foldlM (readBlock text) w

variable (w : Widget)

/-- A text without an end for one of its tags. -/
theorem fillFrom_of_error {text : List Char} {fault : Fault} (h : find text ⟨0, size text⟩ blockNames = .error fault) :
    w.fillFrom text = stop fault := by
  unfold fillFrom
  rw [h]
  rfl

/-- A change that blocks do not notice. -/
theorem Unnoticed.fillFrom {change : Widget → Widget} (h : Unnoticed change) (text : List Char) :
    (change w).fillFrom text = w.fillFrom text >>= fun w' => pure (change w') := by
  unfold Widget.fillFrom
  rw [bind_assoc]
  congr 1
  funext blocks
  exact h.foldlM_readBlock w text blocks

/-- The blocks of a text, where the text stands inside another one. -/
theorem foldlM_readBlock_moved {text : List Char} {blocks : List Element}
    (h : find text ⟨0, size text⟩ blockNames = .ok blocks) (before behind : List Char) :
    (blocks.map (Element.moved (size before))).foldlM (readBlock (before ++ (text ++ behind))) w =
      (blocks.foldlM (readBlock text) w).moved (size before) := by
  have hsited := (found_of_find (Span.fits_whole text) h).sited
  rw [moved_foldlM, List.foldlM_map]
  exact foldlM_congr (fun e he w => readBlock_moved before behind (hsited e he)) w

/-- **One text behind another**: a widget is filled in from the first one, then from the second one. -/
theorem fillFrom_append {front after : List Char} {found blocks : List Element} (hfront : Complete blockNames front found)
    (hafter : find after ⟨0, size after⟩ blockNames = .ok blocks) :
    w.fillFrom (front ++ after) = w.fillFrom front >>= fun w' => (w'.fillFrom after).moved (size front) := by
  have hfind : find (front ++ after) ⟨0, size (front ++ after)⟩ blockNames =
      .ok (found ++ blocks.map (Element.moved (size front))) := by
    rw [hfront.find_append unbroken_blockNames after, hafter]
    rfl
  have hbefore := foldlM_readBlock_moved w hfront.find [] after
  rw [Text.size_nil, moved_zero, List.map_congr_left fun e _ => e.moved_zero, List.map_id'] at hbefore
  have hbehind := fun w' => foldlM_readBlock_moved w' hafter front []
  simp only [List.append_nil] at hbehind
  unfold fillFrom
  rw [hfind, hfront.find, hafter]
  simp only [lift_ok, pure_bind, List.foldlM_append, hbehind]
  exact congrArg (· >>= _) hbefore

/-- **The blocks of an element** are those in the text between its tags. -/
theorem readBlocks_paired (tag : WrittenTag) (inner : List Char) (close : WrittenClose) (name : String)
    (before behind : List Char) :
    w.readBlocks (before ++ ((WrittenElement.paired tag inner close).text ++ behind))
      ((WrittenElement.paired tag inner close).element name (size before)) =
        (w.fillFrom inner).moved (size before + size (tag.text ++ ['>'])) := by
  have hsplit : before ++ ((WrittenElement.paired tag inner close).text ++ behind) =
      (before ++ (tag.text ++ ['>'])) ++ (inner ++ (close.text ++ behind)) := by
    simp [WrittenElement.text]
  have hspan : inside (size before) tag inner =
      Span.moved (size (before ++ (tag.text ++ ['>']))) ⟨0, size inner⟩ := by
    simp only [inside, Span.moved, Text.size_append before, Nat.add_zero]
  unfold readBlocks fillFrom
  rw [content_paired, hspan, hsplit, ← Text.size_append before]
  refine bind_find_moved _ _ (Span.fits_whole inner) blockNames fun found hfound => ?_
  rw [moved_foldlM, List.foldlM_map]
  exact foldlM_congr (fun e he w => readBlock_moved _ _ (hfound e he)) w

end Widget

/-! ## Elements -/

namespace Markup.WrittenElement

/-- The widget that a tag begins. -/
def started (name : String) (tag : WrittenTag) : Reading (Option Widget) := do
  match ← Widget.identify ⟨name, 0, 0, tag.meant, .selfClosing⟩ with
  | none => return none
  | some (id, kind) =>
    return some
      { Widget.ofTag id kind tag.meant with
        gridStart := (Widget.gridStartOf tag.meant none).nonempty?
        width := (Widget.widthOf tag.meant).nonempty? }

/-- **A pair of tags** makes the widget that the open tag begins, with what the text between them fills in. -/
theorem reading_paired (name : String) (tag : WrittenTag) (inner : List Char) (close : WrittenClose) :
    (paired tag inner close).reading name = started name tag >>= fun begun =>
      match begun with
      | none => pure none
      | some w => (w.fillFrom inner).moved (size (tag.text ++ ['>'])) >>= fun w' => pure (some w') := by
  have hidentify : Widget.identify ((paired tag inner close).element name 0) =
      Widget.identify ⟨name, 0, 0, tag.meant, .selfClosing⟩ := by
    unfold Widget.identify
    simp only [attrs_element, start_element, name_element]
    rfl
  have hblocks : ∀ w : Widget, w.readBlocks (paired tag inner close).text ((paired tag inner close).element name 0) =
      (w.fillFrom inner).moved (size (tag.text ++ ['>'])) := by
    intro w
    have hread := w.readBlocks_paired tag inner close name [] []
    simpa only [List.append_nil, List.nil_append, Text.size_nil, Nat.zero_add] using hread
  unfold reading Widget.ofGridElement started
  rw [hidentify, bind_assoc]
  congr 1
  funext found
  cases found with
  | none => rfl
  | some given =>
    simp only [hblocks, pure_bind, attrs_element]
    rfl

end Markup.WrittenElement

end DashboardMarkup
