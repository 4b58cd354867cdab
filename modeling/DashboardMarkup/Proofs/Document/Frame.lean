import DashboardMarkup.Document.WidgetTag
import DashboardMarkup.Proofs.Document.Filled
import DashboardMarkup.Theme.Apply

/-!
# What blocks leave alone

Blocks and themes fill in a data source, a configuration, styling and a container style. What they fill in does
not depend on anything else of the widget but its id and its kind, and they change nothing else. Both are said
by one equation: some changes may be made to a widget before it is filled in or after.

* `Unnoticed`: such a change; `Unnoticed.readBlocks`, `Unnoticed.fillWidget`: it makes no difference when it is made.
* `unnoticed_on`, `unnoticed_inRow`: a widget is put on another base, or into a row.
* `eq_on_of_readBlock`, `eq_on_of_fillWidget`: all else stays.
* `ofRowElement_eq`: a row makes the widget that a grid makes, and puts it into the row.
-/

namespace DashboardMarkup

open Markup Reading

namespace Widget

/-- **A change that nothing that is filled in notices**: it may be made before a field is filled in or after. -/
structure Unnoticed (change : Widget → Widget) : Prop where
  id : ∀ w, (change w).id = w.id
  kind : ∀ w, (change w).kind = w.kind
  mergeConfig : ∀ w patch, (change w).mergeConfig patch = (change (w.mergeConfig patch).1, (w.mergeConfig patch).2)
  mapStyling : ∀ w f, (change w).mapStyling f = change (w.mapStyling f)
  addItems : ∀ w title items, { change w with config := some ((change w).configOrNew.addItems title items) } =
    change { w with config := some (w.configOrNew.addItems title items) }
  dataSource : ∀ w source, { change w with dataSource := source } = change { w with dataSource := source }
  container : ∀ w (f : Option Json.Object → Option Json.Object),
    { change w with container := f (change w).container } = change { w with container := f w.container }

namespace Unnoticed

variable {change : Widget → Widget} (h : Unnoticed change) (w : Widget)

include h

/-- **A theme** may come before or after. -/
theorem fillWidget (theme : Theme) : theme.fillWidget (change w) = change (theme.fillWidget w) := by
  unfold Theme.fillWidget
  rw [h.kind, h.mapStyling]
  exact h.container _ fun o => some (theme.fillContainer (o.getD []))

variable (doc : List Char) (e : Element)

theorem readConfig : (change w).readConfig doc e = w.readConfig doc e >>= fun w' => pure (change w') := by
  unfold Widget.readConfig
  rw [h.id, bind_assoc]
  congr 1
  funext patch
  cases patch with
  | none => rw [pure_bind]
  | some patch =>
    simp only [h.mergeConfig]
    generalize w.mergeConfig patch = result
    obtain ⟨merged, mismatch⟩ := result
    cases mismatch with
    | none => simp only [pure_bind]
    | some mismatch => simp only [bind_assoc, pure_bind, h.id, h.kind]

theorem readStyle : (change w).readStyle doc e = w.readStyle doc e >>= fun w' => pure (change w') := by
  have hisland : Island.widgetStyle (change w).id = .widgetStyle w.id := congrArg _ (h.id w)
  unfold Widget.readStyle
  rw [hisland, bind_assoc]
  congr 1
  funext o
  cases o with
  | none => rw [pure_bind]
  | some o =>
    simp only [pure_bind]
    exact congrArg pure (h.container w fun style => some ((style.getD []).overlay o))

theorem readItems : (change w).readItems doc e = w.readItems doc e >>= fun w' => pure (change w') := by
  have hitems : (change w).readItemList doc e = w.readItemList doc e := by
    unfold readItemList
    rw [h.id]
  unfold Widget.readItems
  rw [hitems]
  by_cases hkind : w.kind = .insights2
  · rw [if_pos hkind, if_pos ((h.kind w).trans hkind)]
    simp only [bind_assoc, pure_bind, h.addItems]
  · rw [if_neg hkind, if_neg fun heq => hkind ((h.kind w).symm.trans heq), pure_bind]

/-- **A block** may come before or after. -/
theorem readBlock : (change w).readBlock doc e = w.readBlock doc e >>= fun w' => pure (change w') := by
  unfold Widget.readBlock
  split
  · exact h.readConfig w doc e
  · rw [pure_bind]
    exact congrArg pure (h.dataSource w _)
  · rw [pure_bind]
    cases e.attrs.first? ["tw", "class"] with
    | none => rfl
    | some tokens => exact congrArg pure (h.mapStyling w fun s => s.applyTokens tokens)
  · exact h.readStyle w doc e
  · exact h.readItems w doc e
  · rw [pure_bind]

theorem foldlM_readBlock (blocks : List Element) :
    blocks.foldlM (Widget.readBlock doc) (change w) =
      blocks.foldlM (Widget.readBlock doc) w >>= fun w' => pure (change w') := by
  induction blocks generalizing w with
  | nil => rw [List.foldlM_nil, List.foldlM_nil, pure_bind]
  | cons b blocks ih =>
    rw [List.foldlM_cons, List.foldlM_cons, h.readBlock, bind_assoc, bind_assoc]
    congr 1
    funext w'
    rw [pure_bind, ih]

/-- **All blocks** may come before or after. -/
theorem readBlocks : (change w).readBlocks doc e = w.readBlocks doc e >>= fun w' => pure (change w') := by
  unfold Widget.readBlocks
  rw [bind_assoc]
  congr 1
  funext blocks
  exact h.foldlM_readBlock w doc blocks

end Unnoticed

/-! ## On another base -/

/-- A widget with everything that blocks neither ask for nor fill in as another one has it. -/
def on (w base : Widget) : Widget :=
  { base with
    id := w.id
    kind := w.kind
    dataSource := w.dataSource
    config := w.config
    styling := w.styling
    container := w.container }

theorem on_self (w : Widget) : w.on w = w :=
  rfl

theorem unnoticed_on (base : Widget) : Unnoticed (·.on base) where
  id _ := rfl
  kind _ := rfl
  mergeConfig w patch := by
    unfold mergeConfig
    rw [show (w.on base).configOrNew = w.configOrNew from rfl]
    cases w.configOrNew.merge patch <;> rfl
  mapStyling w f := by
    have hconfig : (w.on base).configOrNew = w.configOrNew := rfl
    have hkind : (w.on base).kind = w.kind := rfl
    unfold mapStyling
    simp only [hconfig, hkind]
    split
    · split <;> rfl
    · rfl
  addItems _ _ _ := rfl
  dataSource _ _ := rfl
  container _ _ := rfl

/-- A theme changes nothing but what it fills in. -/
theorem eq_on_of_fillWidget (w : Widget) (theme : Theme) : theme.fillWidget w = (theme.fillWidget w).on w :=
  (unnoticed_on w).fillWidget w theme

/-- Blocks change nothing but what they fill in. -/
theorem eq_on_of_readBlock {w w' : Widget} {doc : List Char} {e : Element} (h : (w.readBlock doc e).Gives w') :
    w' = w'.on w := by
  have hon := (unnoticed_on w).readBlock w doc e
  simp only [on_self] at hon
  rw [hon] at h
  obtain ⟨v, -, hv⟩ := exists_of_bind h
  rw [eq_of_gives_pure hv]
  rfl

/-! ## Rows and grids -/

/-- A widget in a row, behind some markup. It has no place on a grid. -/
def inRow (row : String) (lead : Option String) (w : Widget) : Widget :=
  { w with row := some row, lead := lead, gridStart := none, width := none }

theorem unnoticed_inRow (row : String) (lead : Option String) : Unnoticed (inRow row lead) where
  id _ := rfl
  kind _ := rfl
  mergeConfig w patch := by
    unfold mergeConfig
    rw [show (w.inRow row lead).configOrNew = w.configOrNew from rfl]
    cases w.configOrNew.merge patch <;> rfl
  mapStyling w f := by
    have hconfig : (w.inRow row lead).configOrNew = w.configOrNew := rfl
    have hkind : (w.inRow row lead).kind = w.kind := rfl
    unfold mapStyling
    simp only [hconfig, hkind]
    split
    · split <;> rfl
    · rfl
  addItems _ _ _ := rfl
  dataSource _ _ := rfl
  container _ _ := rfl

/-- **An element makes the same widget in a row as on a grid**, with the same notes. -/
theorem ofRowElement_eq (doc : List Char) (row : String) (lead : Span) (column : Option Nat) (e : Element) :
    ofRowElement doc row lead e = (do
      let before ← lead.text doc
      let made ← ofGridElement doc column e
      return made.map (inRow row (nonempty? (String.ofList (Text.trim before))))) := by
  unfold ofRowElement ofGridElement
  simp only [bind_assoc]
  congr 1
  funext before
  congr 1
  funext found
  cases found with
  | none => rfl
  | some given =>
    obtain ⟨id, kind⟩ := given
    simp only [bind_assoc, pure_bind]
    generalize nonempty? (String.ofList (Text.trim before)) = text
    -- the widget that is begun in a row is the one that is begun on a grid, put into the row
    let onGrid : Widget :=
      { ofTag id kind e.attrs with
        gridStart := (gridStartOf e.attrs column).nonempty?
        width := (widthOf e.attrs).nonempty? }
    show (onGrid.inRow row text).readBlocks doc e >>= _ = onGrid.readBlocks doc e >>= _
    rw [(unnoticed_inRow row text).readBlocks]
    simp only [bind_assoc, pure_bind]
    rfl

end Widget

end DashboardMarkup
