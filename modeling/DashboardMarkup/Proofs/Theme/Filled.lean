import DashboardMarkup.Proofs.Json.Object
import DashboardMarkup.Record.Canvas
import DashboardMarkup.Theme.Apply

/-!
# What a theme fills in

What is set stays as it is, and what is absent is as the theme has it, be it a setting of a widget, a member of a
container style or one of the looks of the canvas. So a theme that is applied once more changes nothing.

* `member?_fillStyling`, `find?_fillContainer`, `find?_members_fillCanvas`: what is there afterwards.
* `fillStyling_fillStyling`, `fillContainer_fillContainer`, `fillCanvas_fillCanvas`: nothing is filled twice.
-/

namespace DashboardMarkup

theorem map_fill {α β : Type} (encode : α → β) (value : Option α) (a : α) :
    (fill value a).map encode = (value.map encode).or (some (encode a)) := by
  cases value <;> rfl

namespace Theme

variable (theme : Theme)

/-! ## Styling -/

/-- What a theme has for a setting of a widget: a font and a color for its title, the colors of its background and its
border, the radius of its corners, and the color of its data. -/
def setting? (kind : WidgetKind) : Styling.Field → Option Json
  | .label .titleFontFamily => some (.string theme.fontFamily)
  | .label .titleColor => some (.string theme.textPrimary)
  | .label .backgroundColor => some (.string theme.surface)
  | .label .borderColor => some (.string theme.border)
  | .measure .borderRadius => some (.double theme.radius)
  | .colors => (theme.seriesColor? kind).map fun color => .strings [color]
  | _ => none

/-- **A setting that is absent is as the theme has it**, and all others are as they were. -/
theorem member?_fillStyling (kind : WidgetKind) (s : Styling) (f : Styling.Field) :
    (theme.fillStyling kind s).member? f = (s.member? f).or (theme.setting? kind f) := by
  cases f with
  | switch f => exact (Option.or_none).symm
  | axis => exact (Option.or_none).symm
  | measure f =>
    cases f with
    | borderRadius => exact map_fill Json.double _ _
    | _ => exact (Option.or_none).symm
  | label f =>
    cases f with
    | titleFontFamily => exact map_fill Json.string _ _
    | titleColor => exact map_fill Json.string _ _
    | backgroundColor => exact map_fill Json.string _ _
    | borderColor => exact map_fill Json.string _ _
    | _ => exact (Option.or_none).symm
  | colors =>
    simp only [Styling.member?, fillStyling, setting?]
    cases s.colors with
    | none => simp only [Option.none_or, Option.map_map, Option.map_none, Function.comp_def]
    | some colors => rfl

theorem fillStyling_fillStyling (kind : WidgetKind) (s : Styling) :
    theme.fillStyling kind (theme.fillStyling kind s) = theme.fillStyling kind s := by
  unfold fillStyling
  simp only [fill_fill, Option.or_assoc, Option.or_self]

/-! ## Container styles -/

/-- What a theme has for a member of a container style. -/
def containerMember? : String → Option Json
  | "boxShadow" => some (.string theme.shadow)
  | "backgroundGradient" => theme.gradient.map .string
  | "backdropFilter" => theme.backdrop.map .string
  | _ => none

theorem find?_fillMember (name key : String) (value : Option String) (o : Json.Object) :
    (fillMember name value o).find? key =
      (o.find? key).or (if key = name then value.map .string else none) := by
  by_cases hkey : key = name
  · subst hkey
    rw [if_pos rfl]
    unfold fillMember
    cases value with
    | none => exact (Option.or_none).symm
    | some text =>
      cases hfind : o.find? key with
      | none => exact o.find?_insert_self key _
      | some v => exact hfind
  · rw [if_neg hkey, Option.or_none]
    unfold fillMember
    cases value with
    | none => rfl
    | some text =>
      cases o.find? name with
      | none => exact o.find?_insert_of_ne _ hkey
      | some v => rfl

/-- Nothing is set where something is there already, or where there is nothing to set. -/
theorem fillMember_eq_self {name : String} {value : Option String} {o : Json.Object}
    (h : value ≠ none → o.find? name ≠ none) : fillMember name value o = o := by
  unfold fillMember
  cases value with
  | none => rfl
  | some text =>
    cases hfind : o.find? name with
    | none => exact absurd hfind (h (by simp))
    | some v => rfl

/-- **A member that is absent is as the theme has it**, and all others are as they were. -/
theorem find?_fillContainer (o : Json.Object) (key : String) :
    (theme.fillContainer o).find? key = (o.find? key).or (theme.containerMember? key) := by
  unfold fillContainer
  rw [find?_fillMember, find?_fillMember, find?_fillMember, Option.or_assoc, Option.or_assoc]
  congr 1
  fun_cases containerMember? theme key with
  | case1 => simp
  | case2 => simp
  | case3 => simp
  | case4 _ hshadow hgradient hbackdrop =>
    rw [if_neg hshadow, if_neg hgradient, if_neg hbackdrop, Option.or_none, Option.or_none]

theorem fillContainer_fillContainer (o : Json.Object) :
    theme.fillContainer (theme.fillContainer o) = theme.fillContainer o := by
  have hthere {key : String} (h : theme.containerMember? key ≠ none) : (theme.fillContainer o).find? key ≠ none := by
    rw [find?_fillContainer]
    exact fun hnone => h (Option.or_eq_none_iff.mp hnone).2
  have hshadow : fillMember "boxShadow" (some theme.shadow) (theme.fillContainer o) = theme.fillContainer o :=
    fillMember_eq_self fun _ => hthere (by simp [containerMember?])
  have hgradient : fillMember "backgroundGradient" theme.gradient (theme.fillContainer o) = theme.fillContainer o :=
    fillMember_eq_self fun h => hthere (by simpa [containerMember?] using h)
  have hbackdrop : fillMember "backdropFilter" theme.backdrop (theme.fillContainer o) = theme.fillContainer o :=
    fillMember_eq_self fun h => hthere (by simpa [containerMember?] using h)
  calc theme.fillContainer (theme.fillContainer o)
      = fillMember "backdropFilter" theme.backdrop (fillMember "backgroundGradient" theme.gradient
          (fillMember "boxShadow" (some theme.shadow) (theme.fillContainer o))) := rfl
    _ = theme.fillContainer o := by rw [hshadow, hgradient, hbackdrop]

/-! ## The canvas -/

/-- What a theme has for one of the looks of the canvas. -/
def canvasMember? : String → Option Json
  | "backgroundColor" => some (.string theme.gridBackground)
  | "borderColor" => some (.string theme.gridBorder)
  | "boxShadow" => some (.string theme.shadow)
  | "backgroundGradient" => theme.gradient.map .string
  | "backdropFilter" => theme.backdrop.map .string
  | _ => none

/-- **One of the looks that is absent is as the theme has it**, and all others are as they were. -/
theorem find?_members_fillCanvas (canvas : Canvas) (key : String) :
    (theme.fillCanvas canvas).style.members.find? key =
      (canvas.style.members.find? key).or (theme.canvasMember? key) := by
  unfold CanvasStyle.members
  simp only [Json.find?_append, Json.find?_field?, fillCanvas, map_fill, Option.map_or]
  fun_cases canvasMember? theme key with
  | case1 => simp
  | case2 => simp
  | case3 => simp
  | case4 => simp
  | case5 => simp
  | case6 _ hbackground hborder hshadow hgradient hbackdrop =>
    simp only [if_neg hbackground, if_neg hborder, if_neg hshadow, if_neg hgradient, if_neg hbackdrop, Option.or_none]

theorem fillCanvas_fillCanvas (canvas : Canvas) :
    theme.fillCanvas (theme.fillCanvas canvas) = theme.fillCanvas canvas := by
  unfold fillCanvas
  simp only [fill_fill, Option.or_assoc, Option.or_self]

end Theme

end DashboardMarkup
