import DashboardMarkup.Proofs.Document.Slots
import DashboardMarkup.Proofs.Style.Fields

/-!
# A theme fills gaps

A theme goes over the widgets and the canvas of a dashboard once they are made. Where the styling of a widget lies
depends on its kind, and it is begun there if it is absent; so the theme has to find it where it is, and may not
begin a configuration anew that holds more than styling.

* `Widget.mapStyling_mapStyling`: two changes of styling are one.
* `Theme.Fills`, `Theme.FillsCanvas`: what is there afterwards.
* `Theme.fills_gaps`: a theme fills gaps and does nothing else, and nothing at all the second time.
-/

namespace DashboardMarkup

/-! ## Changes of styling -/

namespace Config

/-- The configuration without its styling. -/
def unstyled : Config → Config
  | kpi _ extra => kpi {} extra
  | chart kind _ extra => chart kind none extra
  | insights2 title items extra => insights2 title items extra
  | plain extra => plain extra

variable {f g : Styling → Styling} {c c' : Config}

theorem unstyled_mapStyling? (h : c.mapStyling? f = some c') : c'.unstyled = c.unstyled := by
  obtain ⟨styling, extra, rfl, rfl⟩ | ⟨chart, styling, extra, rfl, rfl⟩ := mapStyling?_eq_some h <;> rfl

theorem mapStyling?_mapStyling? (h : c.mapStyling? f = some c') :
    c'.mapStyling? g = c.mapStyling? fun s => g (f s) := by
  obtain ⟨styling, extra, rfl, rfl⟩ | ⟨chart, styling, extra, rfl, rfl⟩ := mapStyling?_eq_some h <;> rfl

end Config

namespace Widget

variable {w : Widget}

/-- **Two changes of styling** in a configuration that suits the widget are one. -/
theorem mapStyling_mapStyling (h : ∀ c ∈ w.config, c.Suits w.kind) (f g : Styling → Styling) :
    (w.mapStyling f).mapStyling g = w.mapStyling fun s => g (f s) := by
  cases hdata : w.kind.showsData with
  | false =>
    rw [Slotted.mapStyling_eq_beside hdata f, Slotted.mapStyling_eq_beside hdata,
      Slotted.mapStyling_eq_beside (w := { w with styling := some (f (w.styling.getD {})) }) hdata g]
    rfl
  | true =>
    obtain ⟨first, hfirst⟩ := (suits_configOrNew h).exists_mapStyling? hdata f
    obtain ⟨both, hboth⟩ := (suits_configOrNew h).exists_mapStyling? hdata fun s => g (f s)
    have hsecond : first.mapStyling? g = some both := (Config.mapStyling?_mapStyling? hfirst).trans hboth
    rw [mapStyling_eq_inside hdata hfirst, mapStyling_eq_inside hdata hboth,
      mapStyling_eq_inside (w := { w with config := some first }) hdata hsecond]

/-- A change of styling that changes nothing the second time. -/
theorem mapStyling_twice (h : ∀ c ∈ w.config, c.Suits w.kind) {f : Styling → Styling} (hf : ∀ s, f (f s) = f s) :
    (w.mapStyling f).mapStyling f = w.mapStyling f := by
  rw [mapStyling_mapStyling h]
  simp only [hf]

/-- Where the styling lies does not depend on the container style. -/
theorem mapStyling_withContainer (w : Widget) (container : Option Json.Object) (f : Styling → Styling) :
    { w with container := container }.mapStyling f = { w.mapStyling f with container := container } := by
  unfold mapStyling configOrNew
  cases w.kind.showsData with
  | false => rfl
  | true =>
    simp only [if_true]
    cases ((w.config.getD (Config.forKind w.kind)).mapStyling? f).or ((Config.forKind w.kind).mapStyling? f) <;> rfl

theorem container_mapStyling (w : Widget) (f : Styling → Styling) : (w.mapStyling f).container = w.container := by
  obtain ⟨config, styling, heq⟩ := w.exists_mapStyling f
  rw [heq]

theorem kind_mapStyling (w : Widget) (f : Styling → Styling) : (w.mapStyling f).kind = w.kind := by
  obtain ⟨config, styling, heq⟩ := w.exists_mapStyling f
  rw [heq]

/-- A setting of a widget, wherever its styling lies. -/
def setting? (w : Widget) (f : Styling.Field) : Option Json :=
  w.styling?.bind fun s => s.member? f

/-- A member of the container style of a widget. -/
def containerMember? (w : Widget) (key : String) : Option Json :=
  w.container.bind fun o => o.find? key

theorem member?_getD_styling? (w : Widget) (f : Styling.Field) : (w.styling?.getD {}).member? f = w.setting? f := by
  unfold setting?
  cases w.styling? with
  | some s => rfl
  | none => exact f.member?_empty

end Widget

/-! ## Widgets under a theme -/

namespace Theme

variable {theme : Theme} {w : Widget}

/-- **A widget whose gaps a theme has filled.** Its styling and its container style are begun if they are absent,
and have then what they had before, and what the theme has for the rest. -/
structure Fills (theme : Theme) (w w' : Widget) : Prop where
  /-- Nothing is touched but what holds the styling, and the container style. -/
  rest : w' = { w with config := w'.config, styling := w'.styling, container := w'.container }
  /-- A configuration that holds the styling keeps all else; any other one stays as it is. -/
  config : if w.kind.showsData then w'.styling = w.styling ∧ w'.configOrNew.unstyled = w.configOrNew.unstyled
    else w'.config = w.config
  setting : ∀ f, w'.setting? f = (w.setting? f).or (theme.setting? w.kind f)
  container : ∀ key, w'.containerMember? key = (w.containerMember? key).or (theme.containerMember? key)

/-- A widget under a theme, put together. -/
theorem fillWidget_eq (theme : Theme) (w : Widget) :
    theme.fillWidget w = { w.mapStyling (theme.fillStyling w.kind) with
      container := some (theme.fillContainer (w.container.getD [])) } := by
  rw [← w.container_mapStyling (theme.fillStyling w.kind)]
  rfl

theorem containerMember?_fillWidget (theme : Theme) (w : Widget) (key : String) :
    (theme.fillWidget w).containerMember? key = (w.containerMember? key).or (theme.containerMember? key) := by
  calc (theme.fillWidget w).containerMember? key
      = (theme.fillContainer (w.container.getD [])).find? key := by rw [fillWidget_eq]; rfl
    _ = ((w.container.getD []).find? key).or (theme.containerMember? key) := theme.find?_fillContainer _ key
    _ = (w.containerMember? key).or (theme.containerMember? key) := by
      unfold Widget.containerMember?
      cases w.container <;> rfl

/-- **A theme fills the gaps of a widget** whose configuration suits it. -/
theorem fills_fillWidget (h : ∀ c ∈ w.config, c.Suits w.kind) (theme : Theme) :
    theme.Fills w (theme.fillWidget w) where
  rest := by
    obtain ⟨config, styling, heq⟩ := w.exists_mapStyling (theme.fillStyling w.kind)
    rw [fillWidget_eq, heq]
  config := by
    cases hdata : w.kind.showsData with
    | false =>
      rw [if_neg (by decide)]
      unfold fillWidget
      rw [Widget.Slotted.mapStyling_eq_beside hdata]
    | true =>
      obtain ⟨c, hc⟩ := (Widget.suits_configOrNew h).exists_mapStyling? hdata (theme.fillStyling w.kind)
      rw [if_pos rfl]
      unfold fillWidget
      rw [Widget.mapStyling_eq_inside hdata hc]
      exact ⟨rfl, Config.unstyled_mapStyling? hc⟩
  setting f := by
    have hstyling : (theme.fillWidget w).styling? = some (theme.fillStyling w.kind (w.styling?.getD {})) :=
      w.styling?_mapStyling _
    calc (theme.fillWidget w).setting? f
        = (theme.fillStyling w.kind (w.styling?.getD {})).member? f := by rw [Widget.setting?, hstyling]; rfl
      _ = ((w.styling?.getD {}).member? f).or (theme.setting? w.kind f) := theme.member?_fillStyling w.kind _ f
      _ = (w.setting? f).or (theme.setting? w.kind f) := by rw [w.member?_getD_styling? f]
  container := theme.containerMember?_fillWidget w

/-- **The same theme once more changes nothing.** -/
theorem fillWidget_fillWidget (h : ∀ c ∈ w.config, c.Suits w.kind) (theme : Theme) :
    theme.fillWidget (theme.fillWidget w) = theme.fillWidget w := by
  have hstyled : (w.mapStyling (theme.fillStyling w.kind)).mapStyling (theme.fillStyling w.kind) =
      w.mapStyling (theme.fillStyling w.kind) := Widget.mapStyling_twice h (theme.fillStyling_fillStyling w.kind)
  rw [fillWidget_eq theme w, fillWidget_eq, Widget.mapStyling_withContainer]
  simp only [Widget.kind_mapStyling, hstyled, Option.getD_some, fillContainer_fillContainer]

/-! ## The canvas under a theme -/

/-- **A canvas whose gaps a theme has filled.** Its sizes, its layout and its sections are as they were. -/
structure FillsCanvas (theme : Theme) (canvas canvas' : Canvas) : Prop where
  rest : canvas' = { canvas with style := canvas'.style }
  style : ∀ key, canvas'.style.members.find? key = (canvas.style.members.find? key).or (theme.canvasMember? key)

theorem fillsCanvas_fillCanvas (theme : Theme) (canvas : Canvas) :
    theme.FillsCanvas canvas (theme.fillCanvas canvas) where
  rest := rfl
  style := theme.find?_members_fillCanvas canvas

/-! ## Themes by name -/

variable {name : String}

theorem applyToWidgets_of_some (h : find? name = some theme) (widgets : List Widget) :
    applyToWidgets name widgets = widgets.map theme.fillWidget := by
  unfold applyToWidgets
  rw [h]

theorem applyToCanvas_of_some (h : find? name = some theme) (canvas : Canvas) :
    applyToCanvas name canvas = theme.fillCanvas canvas := by
  unfold applyToCanvas
  rw [h]

theorem applyToWidgets_of_none (h : find? name = none) (widgets : List Widget) :
    applyToWidgets name widgets = widgets := by
  unfold applyToWidgets
  rw [h]

theorem applyToCanvas_of_none (h : find? name = none) (canvas : Canvas) : applyToCanvas name canvas = canvas := by
  unfold applyToCanvas
  rw [h]

/-- **A theme fills gaps and does nothing else.** Of widgets whose configurations suit them it keeps all settings and
all members of their container styles that are there, and of a canvas all looks; what is absent is as the theme has it.
A theme that is applied once more changes nothing, and neither does one that is unknown. -/
theorem fills_gaps (name : String) (widgets : List Widget) (canvas : Canvas)
    (h : ∀ w ∈ widgets, ∀ c ∈ w.config, c.Suits w.kind) :
    (∀ theme, find? name = some theme →
      List.Forall₂ theme.Fills widgets (applyToWidgets name widgets) ∧
        theme.FillsCanvas canvas (applyToCanvas name canvas)) ∧
    (find? name = none → applyToWidgets name widgets = widgets ∧ applyToCanvas name canvas = canvas) ∧
    applyToWidgets name (applyToWidgets name widgets) = applyToWidgets name widgets ∧
    applyToCanvas name (applyToCanvas name canvas) = applyToCanvas name canvas := by
  refine ⟨fun theme hname => ⟨?_, ?_⟩,
    fun hname => ⟨applyToWidgets_of_none hname widgets, applyToCanvas_of_none hname canvas⟩, ?_, ?_⟩
  · rw [applyToWidgets_of_some hname, List.forall₂_map_right_iff]
    exact List.forall₂_same.mpr fun w hw => theme.fills_fillWidget (h w hw)
  · rw [applyToCanvas_of_some hname]
    exact theme.fillsCanvas_fillCanvas canvas
  · cases hname : find? name with
    | none => rw [applyToWidgets_of_none hname, applyToWidgets_of_none hname]
    | some theme =>
      rw [applyToWidgets_of_some hname, applyToWidgets_of_some hname, List.map_map]
      exact List.map_congr_left fun w hw => fillWidget_fillWidget (h w hw) theme
  · cases hname : find? name with
    | none => rw [applyToCanvas_of_none hname, applyToCanvas_of_none hname]
    | some theme =>
      rw [applyToCanvas_of_some hname, applyToCanvas_of_some hname, fillCanvas_fillCanvas]

/-- A bar chart that has a color for its title, a free member and a shadow that is `null` keeps them. -/
theorem fills_gaps_bar :
    let bar : Widget :=
      { id := "b", kind := .chart .bar
        config := some (.chart .bar (some { titleColor := some "#f00" }) [("legend", .bool true)])
        container := some [("boxShadow", .null)] }
    (∀ w ∈ [bar], ∀ c ∈ w.config, c.Suits w.kind) ∧
      (∃ w', applyToWidgets "DARK" [bar] = [w'] ∧ dark.Fills bar w' ∧
        w'.setting? (.label .titleColor) = some (.string "#f00") ∧
        w'.setting? (.label .backgroundColor) = some (.string "#171717") ∧
        w'.containerMember? "boxShadow" = some .null) ∧
      applyToWidgets "DARK" (applyToWidgets "DARK" [bar]) = applyToWidgets "DARK" [bar] := by
  intro bar
  have hsuits : ∀ w ∈ [bar], ∀ c ∈ w.config, c.Suits w.kind := by
    intro w hw c hc
    obtain rfl := List.mem_singleton.mp hw
    obtain rfl := Option.some.inj hc
    rfl
  have hname : find? "DARK" = some dark := by decide
  obtain ⟨hfills, -, htwice, -⟩ := fills_gaps "DARK" [bar] {} hsuits
  have happly : applyToWidgets "DARK" [bar] = [dark.fillWidget bar] := applyToWidgets_of_some hname [bar]
  have hbar := (hfills dark hname).1
  rw [happly] at hbar
  exact ⟨hsuits, ⟨_, happly, (List.forall₂_cons.mp hbar).1, rfl, rfl, rfl⟩, htwice⟩

end Theme

end DashboardMarkup
