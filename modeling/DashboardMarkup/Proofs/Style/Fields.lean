import DashboardMarkup.Style.Styling

/-!
# Settings apart from one another

A styling is what its settings are: to change one leaves all others, and stylings with the same settings are the
same. The numbers of the bottom axis are settings of their own, apart from whether there is an axis at all.

* `member?_setSwitch_self`, `member?_setSwitch_of_ne` and their likes: what a setting is after a change.
* `ext_member?`: stylings with the same settings are the same.
* `axisBottom_eq_of_tick`: so are axes with the same numbers.
-/

namespace DashboardMarkup

namespace Axis

theorem get_set_self (a : Axis) (x : Option Double) (t : Tick) : (a.set x t).get t = x := by
  cases t <;> rfl

theorem get_set_of_ne (a : Axis) (x : Option Double) {t u : Tick} (h : u ≠ t) : (a.set x t).get u = a.get u := by
  cases t <;> cases u <;> first | rfl | exact absurd rfl h

/-- An axis is what its numbers are. -/
theorem ext_get {a b : Axis} (h : ∀ t, a.get t = b.get t) : a = b := by
  cases a
  cases b
  exact Axis.mk.injEq .. ▸ ⟨h .size, h .padding, h .rotation⟩

/-- The numbers of an axis are read as they were written. -/
theorem setMembers_members (a : Axis) : Json.setMembers setMember {} a.members = .ok a := by
  obtain ⟨_ | size, _ | padding, _ | rotation⟩ := a <;> rfl

theorem ofJson_members (surplus : Json.Surplus) (a : Axis) : ofJson surplus (.object a.members) = .ok a :=
  a.setMembers_members

theorem members_injective : Function.Injective members := fun a b h =>
  Except.ok.inj (a.setMembers_members.symm.trans (h ▸ b.setMembers_members))

end Axis

namespace Styling

/-- A styling that has just been begun has no settings. -/
theorem Field.member?_empty (f : Field) : ({} : Styling).member? f = none := by
  cases f with
  | switch f => cases f <;> rfl
  | measure f => cases f <;> rfl
  | label f => cases f <;> rfl
  | axis => rfl
  | colors => rfl

variable (s : Styling)

/-! ## One setting changed -/

theorem switch_setSwitch_self (b : Option Bool) (f : Switch) : (s.setSwitch b f).switch f = b := by
  cases f <;> rfl

theorem switch_setSwitch_of_ne (b : Option Bool) {f g : Switch} (h : g ≠ f) :
    (s.setSwitch b f).switch g = s.switch g := by
  cases f <;> cases g <;> first | rfl | exact absurd rfl h

theorem measure_setMeasure_self (x : Option Double) (f : Measure) : (s.setMeasure x f).measure f = x := by
  cases f <;> rfl

theorem measure_setMeasure_of_ne (x : Option Double) {f g : Measure} (h : g ≠ f) :
    (s.setMeasure x f).measure g = s.measure g := by
  cases f <;> cases g <;> first | rfl | exact absurd rfl h

theorem label_setLabel_self (t : Option String) (f : Label) : (s.setLabel t f).label f = t := by
  cases f <;> rfl

theorem label_setLabel_of_ne (t : Option String) {f g : Label} (h : g ≠ f) :
    (s.setLabel t f).label g = s.label g := by
  cases f <;> cases g <;> first | rfl | exact absurd rfl h

theorem member?_setSwitch_self (b : Option Bool) (f : Switch) :
    (s.setSwitch b f).member? (.switch f) = b.map .bool :=
  congrArg (Option.map Json.bool) (s.switch_setSwitch_self b f)

theorem member?_setSwitch_of_ne (b : Option Bool) {f : Switch} {g : Field} (h : g ≠ .switch f) :
    (s.setSwitch b f).member? g = s.member? g := by
  cases g with
  | switch g => exact congrArg (Option.map Json.bool) (s.switch_setSwitch_of_ne b fun heq => h (heq ▸ rfl))
  | measure g => cases f <;> rfl
  | label g => cases f <;> rfl
  | axis => cases f <;> rfl
  | colors => cases f <;> rfl

theorem member?_setMeasure_self (x : Option Double) (f : Measure) :
    (s.setMeasure x f).member? (.measure f) = x.map .double :=
  congrArg (Option.map Json.double) (s.measure_setMeasure_self x f)

theorem member?_setMeasure_of_ne (x : Option Double) {f : Measure} {g : Field} (h : g ≠ .measure f) :
    (s.setMeasure x f).member? g = s.member? g := by
  cases g with
  | measure g => exact congrArg (Option.map Json.double) (s.measure_setMeasure_of_ne x fun heq => h (heq ▸ rfl))
  | switch g => cases f <;> rfl
  | label g => cases f <;> rfl
  | axis => cases f <;> rfl
  | colors => cases f <;> rfl

theorem member?_setLabel_self (t : Option String) (f : Label) :
    (s.setLabel t f).member? (.label f) = t.map .string :=
  congrArg (Option.map Json.string) (s.label_setLabel_self t f)

theorem member?_setLabel_of_ne (t : Option String) {f : Label} {g : Field} (h : g ≠ .label f) :
    (s.setLabel t f).member? g = s.member? g := by
  cases g with
  | label g => exact congrArg (Option.map Json.string) (s.label_setLabel_of_ne t fun heq => h (heq ▸ rfl))
  | switch g => cases f <;> rfl
  | measure g => cases f <;> rfl
  | axis => cases f <;> rfl
  | colors => cases f <;> rfl

theorem member?_axisBottom_of_ne (a : Option Axis) {g : Field} (h : g ≠ .axis) :
    { s with axisBottom := a }.member? g = s.member? g := by
  cases g with
  | axis => exact absurd rfl h
  | _ => rfl

theorem member?_colors_of_ne (cs : Option (List String)) {g : Field} (h : g ≠ .colors) :
    { s with colors := cs }.member? g = s.member? g := by
  cases g with
  | colors => exact absurd rfl h
  | _ => rfl

/-! ## The numbers of the bottom axis -/

theorem tick_setTick_self (x : Option Double) (t : Tick) : (s.setTick x t).tick t = x :=
  Axis.get_set_self _ x t

theorem tick_openAxis (t : Tick) : s.openAxis.tick t = s.tick t := by
  unfold tick openAxis
  cases s.axisBottom with
  | none => cases t <;> rfl
  | some a => rfl

theorem tick_setTick_of_ne (x : Option Double) {t u : Tick} (h : u ≠ t) : (s.setTick x t).tick u = s.tick u :=
  (Axis.get_set_of_ne (s.axisBottom.getD {}) x h).trans (s.tick_openAxis u)

/-! ## Stylings with the same settings -/

variable {s} {t : Styling}

/-- The axes of two stylings are the same if both have one or none, and the numbers are the same. -/
theorem axisBottom_eq_of_tick (hsome : s.axisBottom.isSome = t.axisBottom.isSome) (h : ∀ u, s.tick u = t.tick u) :
    s.axisBottom = t.axisBottom := by
  unfold tick at h
  cases hs : s.axisBottom with
  | none => cases ht : t.axisBottom with
    | none => rfl
    | some b => simp [hs, ht] at hsome
  | some a => cases ht : t.axisBottom with
    | none => simp [hs, ht] at hsome
    | some b =>
      simp only [hs, ht, Option.bind_some] at h
      rw [Axis.ext_get h]

/-- **A styling is what its settings are.** -/
theorem ext_member? (h : ∀ f, s.member? f = t.member? f) : s = t := by
  have hbool : Function.Injective Json.bool := fun _ _ => Json.bool.inj
  have hdouble : Function.Injective Json.double := fun _ _ => Json.double.inj
  have hstring : Function.Injective Json.string := fun _ _ => Json.string.inj
  have hstrings : Function.Injective Json.strings := fun _ _ heq =>
    (List.map_inj_right hstring).mp (Json.array.inj heq)
  have hobject : Function.Injective fun a : Axis => Json.object a.members := fun _ _ heq =>
    Axis.members_injective (Json.object.inj heq)
  have hswitch f : s.switch f = t.switch f := Option.map_injective hbool (h (.switch f))
  have hmeasure f : s.measure f = t.measure f := Option.map_injective hdouble (h (.measure f))
  have hlabel f : s.label f = t.label f := Option.map_injective hstring (h (.label f))
  have haxis : s.axisBottom = t.axisBottom := Option.map_injective hobject (h .axis)
  have hcolors : s.colors = t.colors := Option.map_injective hstrings (h .colors)
  cases s
  cases t
  exact Styling.mk.injEq .. ▸ ⟨hswitch .showLegend, hswitch .showGrid, hswitch .enableGridX, hswitch .enableGridY,
    hswitch .enableArea, hswitch .compact, hmeasure .marginBottom, hmeasure .borderRadius, hlabel .layout, haxis,
    hlabel .groupMode, hcolors, hmeasure .startAngle, hmeasure .endAngle, hmeasure .innerRadius,
    hmeasure .outerRadius, hmeasure .cornerRadius, hlabel .titleFontFamily, hmeasure .titleFontSize,
    hlabel .titleColor, hmeasure .titleMarginBottom, hlabel .visualizationType, hlabel .unit, hlabel .borderVariant,
    hmeasure .borderWidth, hlabel .borderColor, hlabel .backgroundColor⟩

end Styling

end DashboardMarkup
