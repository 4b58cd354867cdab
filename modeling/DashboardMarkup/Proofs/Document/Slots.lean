import DashboardMarkup.Proofs.Document.Made
import DashboardMarkup.Proofs.Document.Settings

/-!
# Configurations that suit their widgets

The configuration of a widget is begun in the form of its kind, whatever begins it: an object that is laid over
it, styling tokens, items or a theme. None of them changes the form, so that it is that of the kind in every
widget of every dashboard, and a widget has styling beside its configuration only if its kind has no place for
styling in it. Hence a change of styling never begins a configuration anew that is there already, and what it
has written is the styling of the widget from then on.

* `Config.Suits`: a configuration has the form of a kind.
* `Widget.Slotted.readBlock`, `Widget.Slotted.fillWidget`: every step keeps it.
* `Widget.Slotted.styledInPlace`: where styling is written.
* `Dashboard.slots_suit`: all widgets of all dashboards.
-/

namespace DashboardMarkup

open Markup Reading

/-! ## Forms -/

namespace Config

/-- The empty configuration of the same form. -/
def emptied : Config → Config
  | kpi _ _ => kpi {} []
  | chart kind _ _ => chart kind none []
  | insights2 _ _ _ => insights2 none [] []
  | plain _ => plain []

/-- A configuration has the form of a kind. -/
def Suits (kind : WidgetKind) (c : Config) : Prop :=
  c.emptied = forKind kind

variable {kind : WidgetKind} {c c' : Config}

theorem suits_forKind (kind : WidgetKind) : (forKind kind).Suits kind := by
  cases kind <;> rfl

/-- A configuration of the same form suits the same kinds. -/
theorem Suits.of_emptied (h : c.Suits kind) (heq : c'.emptied = c.emptied) : c'.Suits kind :=
  heq.trans h

/-- It is written under the key of its kind. -/
theorem Suits.key (h : c.Suits kind) : c.key = (forKind kind).key := by
  have hkey : c.emptied.key = c.key := by
    cases c with
    | chart chart _ _ => cases chart <;> rfl
    | _ => rfl
  rw [← hkey, h]

/-- What is computed from a value that may be refused. -/
theorem exists_of_bind {ε α β : Type} {x : Except ε α} {f : α → Except ε β} {b : β} (h : (x >>= f) = .ok b) :
    ∃ a, x = .ok a ∧ f a = .ok b := by
  cases x with
  | error refusal => cases h
  | ok a => exact ⟨a, rfl, h⟩

theorem emptied_kpiOfMembers {members : Json.Object} (h : kpiOfMembers members = .ok c) : c.emptied = .kpi {} [] := by
  obtain ⟨styling, -, h⟩ := exists_of_bind h
  obtain rfl := Except.ok.inj h
  rfl

theorem emptied_chartOfMembers {chart : ChartKind} {members : Json.Object}
    (h : chartOfMembers chart members = .ok c) : c.emptied = .chart chart none [] := by
  unfold chartOfMembers at h
  split at h
  all_goals
    obtain ⟨styling, -, h⟩ := exists_of_bind h
    obtain rfl := Except.ok.inj h
    rfl

theorem emptied_insights2OfMembers {members : Json.Object} (h : insights2OfMembers members = .ok c) :
    c.emptied = .insights2 none [] [] := by
  unfold insights2OfMembers at h
  generalize members.find? "items" = items? at h
  generalize members.find? "title" = title? at h
  cases items? <;> cases title?
  all_goals
    obtain ⟨items, -, h⟩ := exists_of_bind h
    obtain ⟨title, -, h⟩ := exists_of_bind h
    obtain rfl := Except.ok.inj h
    rfl

/-- **An object that is laid over a configuration** keeps its form. -/
theorem emptied_merge {patch : Json.Object} (h : c.merge patch = .ok c') : c'.emptied = c.emptied := by
  cases c with
  | kpi styling extra => exact emptied_kpiOfMembers h
  | chart chart styling extra => exact emptied_chartOfMembers h
  | insights2 title items extra => exact emptied_insights2OfMembers h
  | plain extra =>
    obtain rfl := Except.ok.inj h
    rfl

/-- **A change of styling** is one of a key figure or of a chart, and touches nothing else of it. -/
theorem mapStyling?_eq_some {f : Styling → Styling} (h : c.mapStyling? f = some c') :
    (∃ styling extra, c = kpi styling extra ∧ c' = kpi (f styling) extra) ∨
      ∃ chart styling extra, c = Config.chart chart styling extra ∧
        c' = Config.chart chart (some (f (styling.getD {}))) extra := by
  cases c with
  | kpi styling extra => exact .inl ⟨styling, extra, rfl, (Option.some.inj h).symm⟩
  | chart chart styling extra => exact .inr ⟨chart, styling, extra, rfl, (Option.some.inj h).symm⟩
  | insights2 title items extra => cases h
  | plain extra => cases h

theorem emptied_mapStyling? {f : Styling → Styling} (h : c.mapStyling? f = some c') : c'.emptied = c.emptied := by
  obtain ⟨styling, extra, rfl, rfl⟩ | ⟨chart, styling, extra, rfl, rfl⟩ := mapStyling?_eq_some h <;> rfl

theorem emptied_addItems (c : Config) (heading : Option String) (more : List Item) :
    (c.addItems heading more).emptied = c.emptied := by
  cases c <;> rfl

/-- **A configuration of a kind that shows data has a place for styling.** -/
theorem Suits.exists_mapStyling? (h : c.Suits kind) (hdata : kind.showsData = true) (f : Styling → Styling) :
    ∃ c', c.mapStyling? f = some c' := by
  cases c with
  | kpi styling extra => exact ⟨_, rfl⟩
  | chart chart styling extra => exact ⟨_, rfl⟩
  | insights2 title items extra => cases kind with
    | insights2 => exact absurd hdata (by decide)
    | _ => cases h
  | plain extra => cases kind with
    | plain p => exact absurd hdata (by cases p <;> decide)
    | _ => cases h

end Config

/-! ## Steps -/

namespace Widget

/-- **The configuration of a widget suits its kind**, and it has styling beside this only if its kind has no
place for styling in it. -/
structure Slotted (w : Widget) : Prop where
  config : ∀ c ∈ w.config, c.Suits w.kind
  styling : w.styling ≠ none → w.kind.showsData = false

variable {w w' : Widget} {doc : List Char} {e : Element}

/-- A configuration that is begun if it is absent suits the widget, too. -/
theorem suits_configOrNew (h : ∀ c ∈ w.config, c.Suits w.kind) : w.configOrNew.Suits w.kind := by
  unfold configOrNew
  cases hc : w.config with
  | none => exact Config.suits_forKind w.kind
  | some c => exact h c hc

/-- Styling is changed in a configuration that has a place for it, if the kind has one. -/
theorem mapStyling_eq_inside (hdata : w.kind.showsData = true) {f : Styling → Styling} {c : Config}
    (hc : w.configOrNew.mapStyling? f = some c) : w.mapStyling f = { w with config := some c } := by
  unfold Widget.mapStyling
  simp only [hdata, hc, if_true, Option.some_or]

theorem IsNew.slotted (h : w.IsNew) : w.Slotted where
  config c hc := by
    rw [h.config] at hc
    cases hc
  styling hne := absurd h.styling hne

namespace Slotted

/-- A widget with another configuration that suits it. -/
theorem withConfig (h : w.Slotted) {c : Config} (hc : c.Suits w.kind) : Slotted { w with config := some c } where
  config _ hmem := by
    obtain rfl := Option.some.inj hmem
    exact hc
  styling := h.styling

theorem mergeConfig (h : w.Slotted) (patch : Json.Object) : (w.mergeConfig patch).1.Slotted := by
  unfold Widget.mergeConfig
  split
  · next c hc => exact h.withConfig ((suits_configOrNew h.config).of_emptied (Config.emptied_merge hc))
  · exact h.withConfig (suits_configOrNew h.config)

/-- **Styling is changed in the configuration** of a widget whose kind has a place for it there; the configuration
is never begun anew if there is one. -/
theorem mapStyling_eq (h : w.Slotted) (hdata : w.kind.showsData = true) (f : Styling → Styling) :
    ∃ c, w.configOrNew.mapStyling? f = some c ∧ w.mapStyling f = { w with config := some c } := by
  obtain ⟨c, hc⟩ := (suits_configOrNew h.config).exists_mapStyling? hdata f
  exact ⟨c, hc, mapStyling_eq_inside hdata hc⟩

theorem mapStyling_eq_beside (hdata : w.kind.showsData = false) (f : Styling → Styling) :
    w.mapStyling f = { w with styling := some (f (w.styling.getD {})) } := by
  unfold Widget.mapStyling
  simp only [hdata, Bool.false_eq_true, if_false]

theorem mapStyling (h : w.Slotted) (f : Styling → Styling) : (w.mapStyling f).Slotted := by
  cases hdata : w.kind.showsData with
  | true =>
    obtain ⟨c, hc, heq⟩ := h.mapStyling_eq hdata f
    rw [heq]
    exact h.withConfig ((suits_configOrNew h.config).of_emptied (Config.emptied_mapStyling? hc))
  | false =>
    rw [mapStyling_eq_beside hdata f]
    exact ⟨h.config, fun _ => hdata⟩

theorem readConfig (h : w.Slotted) : (w.readConfig doc e).Yields Slotted := by
  refine yields_bind fun patch => ?_
  cases patch with
  | none => exact yields_pure h
  | some patch =>
    have hmerged := h.mergeConfig patch
    simp only
    generalize w.mergeConfig patch = result at hmerged
    cases result with
    | mk merged mismatch =>
      cases mismatch with
      | none => exact yields_pure hmerged
      | some mismatch => exact yields_bind fun _ => yields_pure hmerged

theorem readStyle (h : w.Slotted) : (w.readStyle doc e).Yields Slotted := by
  refine yields_bind fun o => ?_
  cases o with
  | none => exact yields_pure h
  | some o => exact yields_pure ⟨h.config, h.styling⟩

theorem readItems (h : w.Slotted) : (w.readItems doc e).Yields Slotted := by
  unfold Widget.readItems
  split
  · exact yields_bind fun items => yields_pure
      (h.withConfig ((suits_configOrNew h.config).of_emptied (Config.emptied_addItems _ _ _)))
  · exact yields_pure h

/-- **Every block keeps it**, whether it is taken or refused. -/
theorem readBlock (h : w.Slotted) : (w.readBlock doc e).Yields Slotted := by
  unfold Widget.readBlock
  split
  · exact h.readConfig
  · exact yields_pure ⟨h.config, h.styling⟩
  · refine yields_pure ?_
    cases e.attrs.first? ["tw", "class"] with
    | none => exact h
    | some tokens => exact h.mapStyling fun s => s.applyTokens tokens
  · exact h.readStyle
  · exact h.readItems
  · exact yields_pure h

/-- **So does every theme.** -/
theorem fillWidget (h : w.Slotted) (theme : Theme) : (theme.fillWidget w).Slotted := by
  have hstyled := h.mapStyling (theme.fillStyling w.kind)
  exact ⟨hstyled.config, hstyled.styling⟩

end Slotted

/-- **All widgets on the way.** -/
theorem Made.slotted (h : Made IsNew w) : w.Slotted :=
  h.invariant (fun _ hw => hw.slotted) (fun _ w' _ _ hw hgives => hw.readBlock w' hgives)
    fun _ theme hw => hw.fillWidget theme

/-! ## Where styling is written -/

/-- **A change of styling is made in place.** A configuration that is there stays, but for its styling; and what
has been written is the styling of the widget. -/
structure StyledInPlace (w : Widget) (f : Styling → Styling) : Prop where
  config : ∀ c ∈ w.config, ∃ c', (w.mapStyling f).config = some c' ∧
    if w.kind.showsData then c.mapStyling? f = some c' else c' = c
  styling : (w.mapStyling f).styling? = some (f (w.styling?.getD {}))

theorem Slotted.styledInPlace (h : w.Slotted) (f : Styling → Styling) : w.StyledInPlace f where
  config c hc := by
    cases hdata : w.kind.showsData with
    | true =>
      obtain ⟨c', hc', heq⟩ := h.mapStyling_eq hdata f
      have hown : w.configOrNew = c := by
        unfold configOrNew
        rw [hc, Option.getD_some]
      exact ⟨c', by rw [heq], by rw [if_pos rfl, ← hown, hc']⟩
    | false => exact ⟨c, by rw [Slotted.mapStyling_eq_beside hdata f, hc], by rw [if_neg (by decide)]⟩
  styling := w.styling?_mapStyling f

end Widget

namespace Dashboard

open Widget

/-- **The configurations of all widgets suit their kinds**, whatever the text, under its own theme or any other,
and already while the widgets are made. So each change of styling, be it by tokens or by a theme, is made in
place. -/
theorem slots_suit (text : List Char) :
    (∀ w ∈ (parse text).widgets, Made IsNew w) ∧
    (∀ name, ∀ w ∈ ((parse text).withTheme name).widgets, Made IsNew w) ∧
    ∀ w, Made IsNew w →
      (∀ c ∈ w.config, c.emptied = Config.forKind w.kind ∧ c.key = (Config.forKind w.kind).key) ∧
      (w.styling.isSome = true → w.kind ≠ .kpi ∧ w.kind.isChart = false) ∧
      (∀ f, w.StyledInPlace f) ∧
      (∀ tokens, (w.applyTokens tokens).styling? = some ((w.styling?.getD {}).applyTokens tokens)) ∧
      ∀ theme : Theme, (theme.fillWidget w).styling? = some (theme.fillStyling w.kind (w.styling?.getD {})) := by
  have hmade := made_parse text
  refine ⟨hmade.widgets, fun name => (hmade.withTheme name).widgets, fun w hw => ?_⟩
  have hslotted := hw.slotted
  refine ⟨fun c hc => ⟨hslotted.config c hc, (hslotted.config c hc).key⟩, fun hbeside => ?_, hslotted.styledInPlace,
    fun tokens => w.styling?_mapStyling _, fun theme => w.styling?_mapStyling _⟩
  have hdata : (w.kind == .kpi || w.kind.isChart) = false :=
    hslotted.styling (Option.isSome_iff_ne_none.mp hbeside)
  simpa using hdata

end Dashboard

end DashboardMarkup
