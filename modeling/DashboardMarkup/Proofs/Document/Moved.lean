import DashboardMarkup.Document.WidgetTag
import DashboardMarkup.Proofs.Document.Gives
import DashboardMarkup.Proofs.Markup.Moved

/-!
# Elements read where they stand

What an element makes depends on its own text alone. In a longer document it makes the same widget with the same
notes in the same order, or stops for the same reason; only the offsets of these are higher.

* `Reading.moved`: a reading further on. It keeps `bind`, so that each reader is moved if its parts are.
* `readBlocks_moved`: the blocks of a widget.
* `ofGridElement_moved`: the widget that an element of a grid makes.
-/

namespace DashboardMarkup

open Markup
open Text (size)

/-- The same note further on. -/
def Note.moved (k : Nat) (n : Note) : Note :=
  { n with offset := k + n.offset }

namespace Reading

variable {α β : Type} (k : Nat)

/-- **A reading further on**: the same value, with notes or a fault at higher offsets. -/
def moved : Reading α → Reading α
  | .error fault => .error (fault.moved k)
  | .ok (a, notes) => .ok (a, notes.map (Note.moved k))

theorem moved_zero (x : Reading α) : x.moved 0 = x := by
  cases x with
  | error fault => exact congrArg Except.error fault.moved_zero
  | ok found =>
    have hsame : Note.moved 0 = id := by
      funext n
      simp [Note.moved]
    have hnotes : found.2.map (Note.moved 0) = found.2 := by
      rw [hsame, List.map_id]
    show Except.ok (found.1, found.2.map (Note.moved 0)) = _
    rw [hnotes]

@[simp] theorem moved_pure (a : α) : (pure a : Reading α).moved k = pure a :=
  rfl

/-- What is found is given without notes. -/
theorem lift_ok (a : α) : (liftM (.ok a : Except Fault α) : Reading α) = pure a :=
  rfl

theorem moved_lift (x : Except Fault α) : (liftM x : Reading α).moved k = liftM (x.mapError (Fault.moved k)) := by
  cases x <;> rfl

theorem moved_bind (x : Reading α) (f : α → Reading β) : (x >>= f).moved k = x.moved k >>= fun a => (f a).moved k := by
  cases x with
  | error fault => rfl
  | ok found =>
    obtain ⟨a, notes⟩ := found
    simp only [bind, andThen, moved]
    cases f a with
    | error fault => rfl
    | ok next =>
      simp only [List.map_append]
      rfl

theorem moved_mapM (f : α → Reading β) (as : List α) : (as.mapM f).moved k = as.mapM fun a => (f a).moved k := by
  induction as with
  | nil => rfl
  | cons a as ih =>
    simp only [List.mapM_cons, moved_bind, ih]
    rfl

theorem moved_foldlM (f : β → α → Reading β) (as : List α) (b : β) :
    (as.foldlM f b).moved k = as.foldlM (fun b a => (f b a).moved k) b := by
  induction as generalizing b with
  | nil => rfl
  | cons a as ih => simp only [List.foldlM_cons, moved_bind, ih]

/-- Members that are read alike. -/
theorem mapM_congr {f g : α → Reading β} {as : List α} (h : ∀ a ∈ as, f a = g a) : as.mapM f = as.mapM g := by
  induction as with
  | nil => rfl
  | cons a as ih =>
    rw [List.mapM_cons, List.mapM_cons, h a List.mem_cons_self, ih fun b hb => h b (List.mem_cons_of_mem a hb)]

theorem foldlM_congr {f g : β → α → Reading β} {as : List α} (h : ∀ a ∈ as, ∀ b, f b a = g b a) (b : β) :
    as.foldlM f b = as.foldlM g b := by
  induction as generalizing b with
  | nil => rfl
  | cons a as ih =>
    rw [List.foldlM_cons, List.foldlM_cons, h a List.mem_cons_self]
    congr 1
    funext b'
    exact ih (fun c hc => h c (List.mem_cons_of_mem a hc)) b'

end Reading

open Reading

variable {text : List Char} {e : Element} {w : Widget} (before behind : List Char)

/-- **What is read of the elements that a search finds**, where they stand further on. -/
theorem bind_find_moved {β : Type} {span : Span} (hfits : span.Fits text) (names : List String)
    {f g : List Element → Reading β}
    (h : ∀ found, (∀ e ∈ found, e.Sited text) →
      f (found.map (Element.moved (size before))) = (g found).moved (size before)) :
    ((liftM (find (before ++ (text ++ behind)) (span.moved (size before)) names) : Reading _) >>= f) =
      ((liftM (find text span names) : Reading _) >>= g).moved (size before) := by
  rw [find_moved before behind hfits, moved_bind, moved_lift]
  cases hfind : find text span names with
  | error fault => rfl
  | ok found =>
    have hfound := h found (found_of_find hfits hfind).sited
    show andThen (.ok (found.map _, [])) f = andThen (.ok (found, [])) fun a => (g a).moved (size before)
    simp only [andThen, hfound]

/-- What is read of the text in an element. -/
theorem bind_innerText_moved {β : Type} (h : e.Sited text) {f g : List Char → Reading β}
    (hfg : ∀ inner, f inner = (g inner).moved (size before)) :
    ((liftM ((e.moved (size before)).innerText (before ++ (text ++ behind))) : Reading _) >>= f) =
      ((liftM (e.innerText text) : Reading _) >>= g).moved (size before) := by
  obtain ⟨inner, hinner⟩ := h.exists_innerText
  rw [innerText_moved before behind h, hinner, moved_bind, moved_lift]
  show andThen (.ok (inner, [])) f = andThen (.ok (inner, [])) fun a => (g a).moved (size before)
  simp only [andThen, hfg]

/-! ## Blocks -/

namespace Island

variable (island : Island)

theorem parse_moved (body : List Char) (offset k : Nat) :
    island.parse body (k + offset) = (island.parse body offset).moved k := by
  unfold parse
  split
  · rfl
  · rw [moved_bind]
    rfl

theorem readConfig_moved (h : e.Sited text) :
    island.readConfig (before ++ (text ++ behind)) (e.moved (size before)) =
      (island.readConfig text e).moved (size before) := by
  refine bind_innerText_moved before behind h fun inner => ?_
  simp only
  split
  · rfl
  · exact parse_moved island _ _ _

theorem readStyle_moved (h : e.Sited text) :
    island.readStyle (before ++ (text ++ behind)) (e.moved (size before)) =
      (island.readStyle text e).moved (size before) := by
  refine bind_innerText_moved before behind h fun inner => ?_
  simp only
  split
  · exact parse_moved island _ _ _
  · rfl

end Island

theorem Item.ofElement_moved (widget : String) (h : e.Sited text) :
    ofElement (before ++ (text ++ behind)) widget (e.moved (size before)) =
      (ofElement text widget e).moved (size before) := by
  unfold ofElement
  simp only [Element.attrs_moved, Element.start_moved]
  split
  · rw [moved_bind]
    rfl
  · exact bind_innerText_moved before behind h fun inner => rfl

namespace Widget

theorem readConfig_moved (h : e.Sited text) :
    w.readConfig (before ++ (text ++ behind)) (e.moved (size before)) =
      (w.readConfig text e).moved (size before) := by
  unfold readConfig
  rw [Island.readConfig_moved before behind _ h, moved_bind]
  congr 1
  funext patch
  cases patch with
  | none => rfl
  | some patch =>
    simp only
    split
    · rfl
    · rw [moved_bind]
      rfl

theorem readStyle_moved (h : e.Sited text) :
    w.readStyle (before ++ (text ++ behind)) (e.moved (size before)) =
      (w.readStyle text e).moved (size before) := by
  unfold readStyle
  rw [Island.readStyle_moved before behind _ h, moved_bind]
  congr 1
  funext o
  cases o <;> rfl

theorem readItemList_moved (h : e.Sited text) :
    w.readItemList (before ++ (text ++ behind)) (e.moved (size before)) =
      (w.readItemList text e).moved (size before) := by
  unfold readItemList
  rw [Element.content_moved]
  refine bind_find_moved before behind h.fits_content _ fun found hfound => ?_
  have hitems := mapM_congr fun e he => Item.ofElement_moved before behind w.id (hfound e he)
  rw [moved_bind, moved_mapM, List.mapM_map]
  exact congrArg (· >>= _) hitems

theorem readItems_moved (h : e.Sited text) :
    w.readItems (before ++ (text ++ behind)) (e.moved (size before)) =
      (w.readItems text e).moved (size before) := by
  unfold readItems
  rw [readItemList_moved before behind h]
  split
  · rw [moved_bind]
    rfl
  · rfl

/-- **A block**. -/
theorem readBlock_moved (h : e.Sited text) :
    w.readBlock (before ++ (text ++ behind)) (e.moved (size before)) =
      (w.readBlock text e).moved (size before) := by
  unfold readBlock
  rw [Element.name_moved]
  split
  · exact readConfig_moved before behind h
  · rfl
  · rfl
  · exact readStyle_moved before behind h
  · exact readItems_moved before behind h
  · rfl

/-- **All blocks** of a widget. -/
theorem readBlocks_moved (h : e.Sited text) :
    w.readBlocks (before ++ (text ++ behind)) (e.moved (size before)) =
      (w.readBlocks text e).moved (size before) := by
  unfold readBlocks
  rw [Element.content_moved]
  refine bind_find_moved before behind h.fits_content _ fun found hfound => ?_
  rw [moved_foldlM, List.foldlM_map]
  exact foldlM_congr (fun e he w => readBlock_moved before behind (hfound e he)) w

/-! ## Tags -/

theorem identify_moved (k : Nat) (e : Element) : identify (e.moved k) = (identify e).moved k := by
  unfold identify
  simp only [Element.attrs_moved, Element.start_moved, Element.name_moved]
  split
  · rw [moved_bind]
    rfl
  · split
    · split
      · rfl
      · rw [moved_bind]
        rfl
    · split
      · rfl
      · rw [moved_bind]
        rfl

/-- **The widget that an element of a grid makes.** -/
theorem ofGridElement_moved (column : Option Nat) (h : e.Sited text) :
    ofGridElement (before ++ (text ++ behind)) column (e.moved (size before)) =
      (ofGridElement text column e).moved (size before) := by
  unfold ofGridElement
  rw [identify_moved, moved_bind]
  congr 1
  funext found
  cases found with
  | none => rfl
  | some given =>
    simp only [Element.attrs_moved, readBlocks_moved before behind h, moved_bind, moved_pure]

end Widget

end DashboardMarkup
