import DashboardMarkup.Proofs.Style.Fields
import DashboardMarkup.Proofs.Style.Spelling

/-!
# The last token counts

Each token sets one thing at most, so a list of them is a list of writes to settings that stand apart from one
another: of those to one setting the last one stays, and a setting that none of them sets is as it was. Whether the
settings of the bottom axis are present depends on all tokens that speak of it.

* `Styling.value?_foldl_applyToken`: the value of a setting after some tokens.
* `Styling.ext_value?`: stylings with the same values and with an axis, both or neither, are the same.
* `Styling.last_token_counts`: the last token counts; so the same tokens again change nothing, and tokens for
  different settings may change places.
-/

namespace DashboardMarkup

open Text

namespace Token

variable {token : List Char} {f g : Target} {u v : Json}

/-- A token sets one thing at most. -/
theorem Sets.unique (hf : Sets token f u) (hg : Sets token g v) : f = g ∧ u = v := by
  obtain ⟨w, hw, rfl, rfl⟩ := sets_iff.mp hf
  obtain ⟨w', hw', rfl, rfl⟩ := sets_iff.mp hg
  obtain rfl := Option.some.inj (hw.symm.trans hw')
  exact ⟨rfl, rfl⟩

/-- The setting that a target is, or is a part of. -/
def Target.field : Target → Styling.Field
  | switch f => .switch f
  | measure f => .measure f
  | label f => .label f
  | tick _ => .axis
  | colors => .colors

theorem Target.eq_of_field_eq (hf : f.field ≠ .axis) (h : f.field = g.field) : f = g := by
  cases f <;> cases g <;> simp_all [field]

/-- What a token sets a target to. -/
def sets? (f : Target) (token : List Char) : Option Json :=
  (read token).write.bind fun w => if w.target = f then some w.value else none

theorem sets?_eq_some_iff : sets? f token = some v ↔ Sets token f v := by
  rw [sets_iff]
  unfold sets?
  simp only [Option.bind_eq_some_iff, Option.ite_none_right_eq_some, Option.some.injEq]

/-- A token for a number of the bottom axis speaks of the axis. -/
theorem onAxis_of_sets_tick {t : Tick} (h : Sets token (.tick t) v) : (read token).onAxis = true := by
  obtain ⟨path, hpath, value, hs, -⟩ := h
  have htwo : ∃ part, path = .two "axisbottom" part := by
    cases t <;> exact ⟨_, List.mem_singleton.mp hpath⟩
  obtain ⟨part, rfl⟩ := htwo
  obtain ⟨rest, hkey, hpart⟩ := hs
  exact onAxis_iff.mpr ⟨rest, hkey, hpart.colon_mem⟩

end Token

namespace Styling

open Token (Target Sets sets?)

/-! ## One token -/

/-- The value of what tokens can set, as it is written. -/
def value? (s : Styling) : Target → Option Json
  | .switch f => s.member? (.switch f)
  | .measure f => s.member? (.measure f)
  | .label f => s.member? (.label f)
  | .tick t => (s.tick t).map .double
  | .colors => s.member? .colors

variable (s : Styling)

theorem value?_write_self (w : Token.Write) : (s.write w).value? w.target = some w.value := by
  cases w with
  | switch f on => exact s.member?_setSwitch_self (some on) f
  | measure f x => exact s.member?_setMeasure_self (some x) f
  | label f t => exact s.member?_setLabel_self (some t) f
  | tick t x => exact congrArg (Option.map Json.double) (s.tick_setTick_self (some x) t)
  | color c => rfl

theorem member?_write_of_ne (w : Token.Write) {f : Field} (h : f ≠ w.target.field) :
    (s.write w).member? f = s.member? f := by
  cases w with
  | switch g on => exact s.member?_setSwitch_of_ne (some on) h
  | measure g x => exact s.member?_setMeasure_of_ne (some x) h
  | label g t => exact s.member?_setLabel_of_ne (some t) h
  | tick t x => exact s.member?_axisBottom_of_ne _ h
  | color c => exact s.member?_colors_of_ne _ h

theorem tick_write_of_ne (w : Token.Write) {t : Tick} (h : .tick t ≠ w.target) : (s.write w).tick t = s.tick t := by
  cases w with
  | switch g on => cases g <;> rfl
  | measure g x => cases g <;> rfl
  | label g l => cases g <;> rfl
  | tick u x => exact s.tick_setTick_of_ne (some x) fun heq => h (heq ▸ rfl)
  | color c => rfl

theorem value?_write_of_ne (w : Token.Write) {f : Target} (h : f ≠ w.target) : (s.write w).value? f = s.value? f := by
  cases f with
  | tick t => exact congrArg (Option.map Json.double) (s.tick_write_of_ne w h)
  | switch f => exact s.member?_write_of_ne w fun heq => h (Target.eq_of_field_eq (by simp [Target.field]) heq)
  | measure f => exact s.member?_write_of_ne w fun heq => h (Target.eq_of_field_eq (by simp [Target.field]) heq)
  | label f => exact s.member?_write_of_ne w fun heq => h (Target.eq_of_field_eq (by simp [Target.field]) heq)
  | colors => exact s.member?_write_of_ne w fun heq => h (Target.eq_of_field_eq (by simp [Target.field]) heq)

/-- An axis without numbers is no value. -/
theorem value?_openAxis (f : Target) : s.openAxis.value? f = s.value? f := by
  cases f with
  | tick t => exact congrArg (Option.map Json.double) (s.tick_openAxis t)
  | _ => rfl

/-- The styling that a token finds: the settings of the bottom axis are there if it speaks of them. -/
def begun (token : List Char) : Styling :=
  if (Token.read token).onAxis then s.openAxis else s

variable {token : List Char}

theorem applyToken_of_write {w : Token.Write} (h : (Token.read token).write = some w) :
    s.applyToken token = (s.begun token).write w := by
  unfold applyToken
  simp only [h]
  rfl

theorem applyToken_of_ignored (h : (Token.read token).write = none) : s.applyToken token = s.begun token := by
  unfold applyToken
  simp only [h]
  rfl

theorem value?_begun (f : Target) : (s.begun token).value? f = s.value? f := by
  unfold begun
  split
  · exact s.value?_openAxis f
  · rfl

theorem isSome_axisBottom_begun :
    (s.begun token).axisBottom.isSome = ((Token.read token).onAxis || s.axisBottom.isSome) := by
  unfold begun
  cases (Token.read token).onAxis <;> rfl

/-- **A token sets what it sets, and nothing else.** -/
theorem value?_applyToken (f : Target) : (s.applyToken token).value? f = (sets? f token).or (s.value? f) := by
  unfold sets?
  cases hw : (Token.read token).write with
  | none =>
    rw [s.applyToken_of_ignored hw, value?_begun, Option.bind_none, Option.none_or]
  | some w =>
    rw [s.applyToken_of_write hw, Option.bind_some]
    split
    · next heq => exact heq ▸ value?_write_self _ w
    · next hne => exact (value?_write_of_ne _ w (Ne.symm hne)).trans (s.value?_begun f)

/-- The settings of the bottom axis are there after a token that speaks of it, or if they were before. -/
theorem isSome_axisBottom_applyToken :
    (s.applyToken token).axisBottom.isSome = ((Token.read token).onAxis || s.axisBottom.isSome) := by
  cases hw : (Token.read token).write with
  | none => rw [s.applyToken_of_ignored hw, isSome_axisBottom_begun]
  | some w =>
    rw [s.applyToken_of_write hw]
    cases w with
    | switch f on => cases f <;> exact s.isSome_axisBottom_begun
    | measure f x => cases f <;> exact s.isSome_axisBottom_begun
    | label f t => cases f <;> exact s.isSome_axisBottom_begun
    | tick t x =>
      rw [Token.onAxis_of_sets_tick (Token.sets_iff.mpr ⟨_, hw, rfl, rfl⟩)]
      rfl
    | color c => exact s.isSome_axisBottom_begun

/-! ## Some tokens -/

/-- **The last token that sets a target counts.** -/
theorem value?_foldl_applyToken (tokens : List (List Char)) (f : Target) :
    (tokens.foldl applyToken s).value? f = (tokens.filterMap (sets? f)).getLast?.or (s.value? f) := by
  induction tokens generalizing s with
  | nil => rfl
  | cons token tokens ih =>
    rw [List.foldl_cons, ih, value?_applyToken]
    cases hset : sets? f token with
    | none => rw [List.filterMap_cons_none hset, Option.none_or]
    | some v =>
      rw [List.filterMap_cons_some hset, List.getLast?_cons]
      cases (tokens.filterMap (sets? f)).getLast? <;> rfl

theorem isSome_axisBottom_foldl (tokens : List (List Char)) :
    (tokens.foldl applyToken s).axisBottom.isSome =
      (tokens.any (fun token => (Token.read token).onAxis) || s.axisBottom.isSome) := by
  induction tokens generalizing s with
  | nil => rfl
  | cons token tokens ih =>
    rw [List.foldl_cons, ih, isSome_axisBottom_applyToken, List.any_cons, Bool.or_left_comm, Bool.or_assoc]

variable {s}

/-- **Stylings with the same values** are the same if both have an axis, or neither. -/
theorem ext_value? {t : Styling} (h : ∀ f, s.value? f = t.value? f)
    (haxis : s.axisBottom.isSome = t.axisBottom.isSome) : s = t := by
  have htick u : s.tick u = t.tick u :=
    Option.map_injective (fun _ _ => Json.double.inj) (h (.tick u))
  refine ext_member? fun f => ?_
  cases f with
  | switch f => exact h (.switch f)
  | measure f => exact h (.measure f)
  | label f => exact h (.label f)
  | axis => exact congrArg (Option.map fun a => Json.object a.members) (axisBottom_eq_of_tick haxis htick)
  | colors => exact h .colors

/-- Two lists of tokens set no target both. -/
def SetApart (first second : List (List Char)) : Prop :=
  ∀ f, ∀ t ∈ first, ∀ u ∈ second, ∀ v w, Sets t f v → ¬Sets u f w

theorem setApart_iff {first second : List (List Char)} : SetApart first second ↔
    ∀ t ∈ first, ∀ u ∈ second, ∀ v ∈ (Token.read t).write, ∀ w ∈ (Token.read u).write, v.target ≠ w.target := by
  constructor
  · intro h t ht u hu v hv w hw heq
    exact h v.target t ht u hu v.value w.value (Token.sets_iff.mpr ⟨v, hv, rfl, rfl⟩)
      (Token.sets_iff.mpr ⟨w, hw, heq.symm, rfl⟩)
  · intro h f t ht u hu _ _ hset hset'
    obtain ⟨v, hv, rfl, -⟩ := Token.sets_iff.mp hset
    obtain ⟨w, hw, heq, -⟩ := Token.sets_iff.mp hset'
    exact h t ht u hu v hv w hw heq.symm

instance (first second : List (List Char)) : Decidable (SetApart first second) :=
  decidable_of_iff _ setApart_iff.symm

theorem eq_nil_or_of_setApart {first second : List (List Char)} (h : SetApart first second) (f : Target) :
    first.filterMap (sets? f) = [] ∨ second.filterMap (sets? f) = [] := by
  cases hfirst : first.filterMap (sets? f) with
  | nil => exact .inl rfl
  | cons v vs =>
    have hmem : v ∈ first.filterMap (sets? f) := hfirst ▸ List.mem_cons_self
    obtain ⟨t, ht, hv⟩ := List.mem_filterMap.mp hmem
    refine .inr (List.filterMap_eq_nil_iff.mpr fun u hu => Option.eq_none_iff_forall_ne_some.mpr fun w hw => ?_)
    exact h f t ht u hu v w (Token.sets?_eq_some_iff.mp hv) (Token.sets?_eq_some_iff.mp hw)

variable (s)

theorem value?_applyTokens (tokens : String) (f : Target) :
    (s.applyTokens tokens).value? f = ((words tokens.toList).filterMap (sets? f)).getLast?.or (s.value? f) :=
  s.value?_foldl_applyToken (words tokens.toList) f

theorem isSome_axisBottom_applyTokens (tokens : String) :
    (s.applyTokens tokens).axisBottom.isSome =
      ((words tokens.toList).any (fun token => (Token.read token).onAxis) || s.axisBottom.isSome) :=
  s.isSome_axisBottom_foldl (words tokens.toList)

/-- The same tokens once more change nothing. -/
theorem applyTokens_applyTokens (tokens : String) :
    (s.applyTokens tokens).applyTokens tokens = s.applyTokens tokens := by
  refine ext_value? (fun f => ?_) ?_
  · rw [value?_applyTokens, value?_applyTokens]
    cases ((words tokens.toList).filterMap (sets? f)).getLast? <;> rfl
  · rw [isSome_axisBottom_applyTokens, isSome_axisBottom_applyTokens, ← Bool.or_assoc, Bool.or_self]

/-- Lists of tokens of which no setting is set by both may change places. -/
theorem applyTokens_comm {first second : String} (h : SetApart (words first.toList) (words second.toList)) :
    (s.applyTokens first).applyTokens second = (s.applyTokens second).applyTokens first := by
  refine ext_value? (fun f => ?_) ?_
  · rw [value?_applyTokens, value?_applyTokens, value?_applyTokens, value?_applyTokens]
    rcases eq_nil_or_of_setApart h f with hnil | hnil
    · rw [hnil, List.getLast?_nil, Option.none_or, Option.none_or]
    · rw [hnil, List.getLast?_nil, Option.none_or, Option.none_or]
  · rw [isSome_axisBottom_applyTokens, isSome_axisBottom_applyTokens, isSome_axisBottom_applyTokens,
      isSome_axisBottom_applyTokens, Bool.or_left_comm]

/-- **The last token counts.** After a list of tokens a setting has the value that the last token for it sets, and
the one it had if there is none; what a token sets is what it spells. So the same tokens once more change nothing,
and two lists of tokens of which no setting is set by both may change places. -/
theorem last_token_counts :
    (∀ (s : Styling) (tokens : String) (f : Target), (s.applyTokens tokens).value? f =
      ((words tokens.toList).filterMap (sets? f)).getLast?.or (s.value? f)) ∧
    (∀ (token : List Char) (f : Target) (v : Json), sets? f token = some v ↔ Sets token f v) ∧
    (∀ (s : Styling) (tokens : String), (s.applyTokens tokens).applyTokens tokens = s.applyTokens tokens) ∧
    ∀ (s : Styling) (first second : String), SetApart (words first.toList) (words second.toList) →
      (s.applyTokens first).applyTokens second = (s.applyTokens second).applyTokens first := by
  exact ⟨value?_applyTokens, fun _ _ _ => Token.sets?_eq_some_iff, applyTokens_applyTokens,
    fun s _ _ h => s.applyTokens_comm h⟩

/-- Tokens for the colors and for the switch of areas, which share a key, may change places. -/
theorem last_token_counts_areas :
    SetApart (words "area:on".toList) (words "AREA:color:#fff color:a:b".toList) ∧
      (({} : Styling).applyTokens "area:on").applyTokens "AREA:color:#fff color:a:b" =
        (({} : Styling).applyTokens "AREA:color:#fff color:a:b").applyTokens "area:on" ∧
      ({} : Styling).applyTokens "area:on AREA:color:#fff color:a:b" =
        { enableArea := some true, colors := some ["a:b"] } :=
  have hapart : SetApart (words "area:on".toList) (words "AREA:color:#fff color:a:b".toList) := by decide
  ⟨hapart, last_token_counts.2.2.2 {} _ _ hapart, by decide⟩

end Styling

end DashboardMarkup
