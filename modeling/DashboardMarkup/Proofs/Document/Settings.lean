import DashboardMarkup.Proofs.Document.Whole
import DashboardMarkup.Proofs.Text.Words
import DashboardMarkup.Proofs.Theme.Filled

/-!
# Settings of widgets

Styling tokens set settings of a widget. What is set, a theme leaves alone: it only fills what is absent.

* `Widget.styling?_mapStyling`: styling is found where it was changed.
* `exists_dress`: it changes nothing of a widget but its looks.
* `member?_dress`: what is set of a widget is shown under a theme.
-/

namespace DashboardMarkup

open Text

/-! ## Settings -/

namespace Styling

theorem applyTokens_trimmed (s : Styling) (tokens : String) :
    s.applyTokens (trimmed tokens) = s.applyTokens tokens := by
  unfold applyTokens trimmed
  rw [String.toList_ofList, words_trim]

/-- Blank tokens set nothing. -/
theorem applyTokens_of_trimmed_eq_empty {tokens : String} (h : trimmed tokens = "") (s : Styling) :
    s.applyTokens tokens = s := by
  rw [← applyTokens_trimmed, h]
  rfl

end Styling

/-- Only the looks of a widget are changed with its styling. -/
theorem Widget.exists_mapStyling (w : Widget) (f : Styling → Styling) :
    ∃ config styling, w.mapStyling f = { w with config, styling } := by
  unfold mapStyling
  simp only
  split
  · split
    · exact ⟨_, w.styling, rfl⟩
    · exact ⟨w.config, _, rfl⟩
  · exact ⟨w.config, _, rfl⟩

/-- A configuration of a kind that shows data has a place for styling. -/
theorem Config.exists_mapStyling_forKind {kind : WidgetKind} (h : kind.showsData = true) (f : Styling → Styling) :
    ∃ c, (forKind kind).mapStyling? f = some c ∧ c.styling? = some (f {}) := by
  cases kind with
  | kpi => exact ⟨_, rfl, rfl⟩
  | chart kind => exact ⟨_, rfl, rfl⟩
  | insights2 => exact absurd h (by decide)
  | plain kind => exact absurd h (by cases kind <;> decide)

/-- **Styling is found where it was changed**, wherever that is. -/
theorem Widget.styling?_mapStyling (w : Widget) (f : Styling → Styling) :
    (w.mapStyling f).styling? = some (f (w.styling?.getD {})) := by
  cases hdata : w.kind.showsData with
  | false => simp [mapStyling, styling?, hdata]
  | true =>
    obtain ⟨new, hnew, hstyling⟩ := Config.exists_mapStyling_forKind hdata f
    have hconfig : ∃ c, (w.configOrNew.mapStyling? f).or ((Config.forKind w.kind).mapStyling? f) = some c ∧
        c.styling? = some (f ((w.config.bind Config.styling?).getD {})) := by
      unfold configOrNew
      rw [hnew]
      cases w.config with
      | none => exact ⟨new, by rw [Option.getD_none, hnew, Option.some_or], hstyling⟩
      | some given =>
        cases given with
        | kpi styling extra => exact ⟨_, rfl, rfl⟩
        | chart kind styling extra => exact ⟨_, rfl, rfl⟩
        | insights2 title items extra => exact ⟨new, rfl, hstyling⟩
        | plain extra => exact ⟨new, rfl, hstyling⟩
    obtain ⟨c, hc, hshown⟩ := hconfig
    unfold mapStyling styling?
    simp only [hdata, if_true, hc, Option.bind_some, hshown]

/-- **A theme changes nothing of a widget but its looks.** -/
theorem exists_dress (root : Markup.Node) (w : Widget) :
    ∃ config styling container, root.dress w = { w with config, styling, container } := by
  unfold Markup.Node.dress
  cases root.theme?.bind Theme.find? with
  | none => exact ⟨w.config, w.styling, w.container, rfl⟩
  | some theme =>
    obtain ⟨config, styling, hstyled⟩ := w.exists_mapStyling (theme.fillStyling w.kind)
    simp only [Option.map_some, Option.getD_some, Theme.fillWidget, hstyled]
    exact ⟨config, styling, _, rfl⟩

/-- **What is set of a widget is shown under a theme.** -/
theorem member?_dress (root : Markup.Node) {w : Widget} {s : Styling} (hs : w.styling? = some s)
    {f : Styling.Field} {v : Json} (h : s.member? f = some v) :
    ∃ s', (root.dress w).styling? = some s' ∧ s'.member? f = some v := by
  unfold Markup.Node.dress
  cases root.theme?.bind Theme.find? with
  | none => exact ⟨s, hs, h⟩
  | some theme =>
    have hstyled := w.styling?_mapStyling (theme.fillStyling w.kind)
    rw [hs, Option.getD_some] at hstyled
    exact ⟨_, hstyled, by rw [theme.member?_fillStyling, h, Option.some_or]⟩

end DashboardMarkup
