import DashboardMarkup.Proofs.Json.Object
import DashboardMarkup.Proofs.Style.Fields

/-!
# Reading settings that were written

What a value reads as depends on nothing but its setting: not on what the styling had before, nor on the values of
other settings. A value that a styling has written is read as it is.

* `Styling.Field.reread`: a value, written again after it has been read.
* `Styling.setMembers_eq_ok_iff`: a styling that is read from members has what each of them reads as.
* `Styling.ofJson_members`: a styling that has been written is read as it was.
-/

namespace DashboardMarkup

namespace Json

variable {α : Type} {decode : Json → Except Mismatch α}

theorem optional_eq_some {v : Json} {a : α} (hnull : v ≠ .null) (h : decode v = .ok a) :
    optional decode v = .ok (some a) := by
  unfold optional
  split
  · exact absurd rfl hnull
  · rw [h]
    rfl

theorem asList_map (encode : α → Json) (h : ∀ a, decode (encode a) = .ok a) (as : List α) :
    asList decode (.array (as.map encode)) = .ok as := by
  unfold asList
  induction as with
  | nil => rfl
  | cons a as ih =>
    simp only [List.map_cons, List.mapM_cons, h, ih]
    rfl

end Json

namespace Styling

namespace Field

theorem mem_all (f : Field) : f ∈ all := by
  cases f with
  | switch f => cases f <;> decide
  | measure f => cases f <;> decide
  | label f => cases f <;> decide
  | axis => decide
  | colors => decide

theorem nodup_keys : (all.map key).Nodup := by
  decide

theorem key_injective : Function.Injective key := fun f g h =>
  List.inj_on_of_nodup_map nodup_keys f.mem_all g.mem_all h

variable {f : Field} {key : String}

theorem key_of_ofKey? (h : ofKey? key = some f) : f.key = key :=
  beq_iff_eq.mp (List.find?_some (p := fun f : Field => f.key == key) h)

theorem ofKey?_key (f : Field) : ofKey? f.key = some f := by
  cases h : ofKey? f.key with
  | none => exact absurd (beq_self_eq_true f.key) (List.find?_eq_none.mp h f f.mem_all)
  | some g => rw [key_injective (key_of_ofKey? h)]

end Field

variable {s s' : Styling} {f g : Field} {surplus : Json.Surplus} {v : Json}

/-! ## One value -/

/-- A value of a setting, written again after it has been read. -/
def Field.reread (surplus : Json.Surplus) (f : Field) (v : Json) : Except Json.Mismatch (Option Json) :=
  (({} : Styling).setField surplus v f).map fun s => s.member? f

/-- **What a value reads as does not depend on the styling.** -/
theorem map_setField (s : Styling) (surplus : Json.Surplus) (v : Json) (f : Field) :
    (s.setField surplus v f).map (fun s => s.member? f) = f.reread surplus v := by
  unfold Field.reread
  cases f with
  | switch f =>
    simp only [setField]
    cases Json.optional Json.asBool v with
    | error m => rfl
    | ok b => exact congrArg Except.ok ((s.member?_setSwitch_self b f).trans (member?_setSwitch_self {} b f).symm)
  | measure f =>
    simp only [setField]
    cases Json.optional Json.asDouble v with
    | error m => rfl
    | ok x => exact congrArg Except.ok ((s.member?_setMeasure_self x f).trans (member?_setMeasure_self {} x f).symm)
  | label f =>
    simp only [setField]
    cases Json.optional Json.asText v with
    | error m => rfl
    | ok t => exact congrArg Except.ok ((s.member?_setLabel_self t f).trans (member?_setLabel_self {} t f).symm)
  | axis =>
    simp only [setField]
    cases Json.optional (Axis.ofJson surplus) v <;> rfl
  | colors =>
    simp only [setField]
    cases Json.optional (Json.asList Json.asText) v <;> rfl

theorem member?_setField_self (h : s.setField surplus v f = .ok s') : f.reread surplus v = .ok (s'.member? f) := by
  rw [← map_setField s, h]
  rfl

/-- A value that is read changes no other setting. -/
theorem member?_setField_of_ne (h : s.setField surplus v f = .ok s') (hne : g ≠ f) : s'.member? g = s.member? g := by
  cases f with
  | switch f =>
    simp only [setField] at h
    cases hread : Json.optional Json.asBool v with
    | error m => rw [hread] at h; cases h
    | ok b =>
      rw [hread] at h
      obtain rfl := Except.ok.inj h
      exact s.member?_setSwitch_of_ne b hne
  | measure f =>
    simp only [setField] at h
    cases hread : Json.optional Json.asDouble v with
    | error m => rw [hread] at h; cases h
    | ok x =>
      rw [hread] at h
      obtain rfl := Except.ok.inj h
      exact s.member?_setMeasure_of_ne x hne
  | label f =>
    simp only [setField] at h
    cases hread : Json.optional Json.asText v with
    | error m => rw [hread] at h; cases h
    | ok t =>
      rw [hread] at h
      obtain rfl := Except.ok.inj h
      exact s.member?_setLabel_of_ne t hne
  | axis =>
    simp only [setField] at h
    cases hread : Json.optional (Axis.ofJson surplus) v with
    | error m => rw [hread] at h; cases h
    | ok a =>
      rw [hread] at h
      obtain rfl := Except.ok.inj h
      exact s.member?_axisBottom_of_ne a hne
  | colors =>
    simp only [setField] at h
    cases hread : Json.optional (Json.asList Json.asText) v with
    | error m => rw [hread] at h; cases h
    | ok cs =>
      rw [hread] at h
      obtain rfl := Except.ok.inj h
      exact s.member?_colors_of_ne cs hne

/-- **A value that has been written is read as it is.** -/
theorem reread_member? (h : s.member? f = some v) : f.reread surplus v = .ok (some v) := by
  cases f with
  | switch f =>
    obtain ⟨b, -, rfl⟩ := Option.map_eq_some_iff.mp h
    exact congrArg Except.ok (member?_setSwitch_self {} (some b) f)
  | measure f =>
    obtain ⟨x, -, rfl⟩ := Option.map_eq_some_iff.mp h
    exact congrArg Except.ok (member?_setMeasure_self {} (some x) f)
  | label f =>
    obtain ⟨t, -, rfl⟩ := Option.map_eq_some_iff.mp h
    exact congrArg Except.ok (member?_setLabel_self {} (some t) f)
  | axis =>
    obtain ⟨a, -, rfl⟩ := Option.map_eq_some_iff.mp h
    have hread : Json.optional (Axis.ofJson surplus) (.object a.members) = .ok (some a) :=
      Json.optional_eq_some (by simp) (a.ofJson_members surplus)
    simp only [Field.reread, setField, hread]
    rfl
  | colors =>
    obtain ⟨cs, -, rfl⟩ := Option.map_eq_some_iff.mp h
    have hread : Json.optional (Json.asList Json.asText) (Json.strings cs) = .ok (some cs) :=
      Json.optional_eq_some (by simp [Json.strings]) (Json.asList_map Json.string (fun _ => rfl) cs)
    simp only [Field.reread, setField, hread]
    rfl

/-! ## All members -/

theorem nodup_members (s : Styling) : (s.members.map Prod.fst).Nodup := by
  refine List.pairwise_map.mpr (List.pairwise_filterMap.mpr ?_)
  refine List.Pairwise.imp ?_ (List.pairwise_map.mp Field.nodup_keys)
  intro f g hne m hm n hn
  obtain ⟨v, -, rfl⟩ := Option.map_eq_some_iff.mp hm
  obtain ⟨w, -, rfl⟩ := Option.map_eq_some_iff.mp hn
  exact hne

/-- What is written for a key. -/
theorem find?_members (s : Styling) (key : String) : s.members.find? key = (Field.ofKey? key).bind s.member? := by
  refine Option.ext fun v => (Json.Object.mem_iff s.nodup_members (key, v)).symm.trans ?_
  constructor
  · intro hmem
    obtain ⟨f, -, hf⟩ := List.mem_filterMap.mp hmem
    obtain ⟨w, hw, heq⟩ := Option.map_eq_some_iff.mp hf
    obtain ⟨rfl, rfl⟩ := Prod.mk.inj heq
    rw [f.ofKey?_key, Option.bind_some, hw]
  · intro hbind
    obtain ⟨f, hf, hv⟩ := Option.bind_eq_some_iff.mp hbind
    obtain rfl := Field.key_of_ofKey? hf
    exact List.mem_filterMap.mpr ⟨f, f.mem_all, by rw [hv]; rfl⟩

/-- **A styling that is read from members has what each of them reads as**, and is else as it was. -/
theorem setMembers_eq_ok_iff {o : Json.Object} (ho : (o.map Prod.fst).Nodup) :
    Json.setMembers (setMember surplus) s o = .ok s' ↔
      ∀ f : Field, (o.find? f.key).elim (.ok (s.member? f)) (f.reread surplus) = .ok (s'.member? f) := by
  induction o generalizing s with
  | nil =>
    constructor
    · intro h f
      obtain rfl := Except.ok.inj h
      rfl
    · intro h
      exact congrArg Except.ok (ext_member? fun f => Except.ok.inj (h f))
  | cons m o ih =>
    obtain ⟨key, v⟩ := m
    obtain ⟨hkey, hnodup⟩ := List.nodup_cons.mp ho
    have hstep : Json.setMembers (setMember surplus) s ((key, v) :: o) =
        setMember surplus key v s >>= fun s₁ => Json.setMembers (setMember surplus) s₁ o := List.foldlM_cons
    rw [hstep]
    unfold setMember
    cases hof : Field.ofKey? key with
    | none =>
      refine (ih hnodup).trans (forall_congr' fun f => ?_)
      have hne : f.key ≠ key := by
        rintro rfl
        rw [f.ofKey?_key] at hof
        cases hof
      rw [Json.Object.find?_cons, if_neg hne]
    | some g =>
      obtain rfl := Field.key_of_ofKey? hof
      simp only
      cases hset : s.setField surplus v g with
      | error mismatch =>
        refine iff_of_false (by rintro ⟨⟩) fun h => ?_
        have hg := h g
        rw [Json.Object.find?_cons, if_pos rfl, Option.elim_some, ← map_setField s, hset] at hg
        cases hg
      | ok s₁ =>
        refine (ih hnodup).trans (forall_congr' fun f => ?_)
        rw [Json.Object.find?_cons]
        by_cases hfg : f = g
        · subst hfg
          rw [if_pos rfl, Json.Object.find?_eq_none hkey, Option.elim_none, Option.elim_some,
            member?_setField_self hset]
        · rw [if_neg fun heq => hfg (Field.key_injective heq), member?_setField_of_ne hset hfg]

/-- **A styling that has been written is read as it was.** -/
theorem ofJson_members (s : Styling) : ofJson (.object s.members) = .ok s := by
  refine (setMembers_eq_ok_iff s.nodup_members).mpr fun f => ?_
  rw [s.find?_members, f.ofKey?_key, Option.bind_some]
  cases h : s.member? f with
  | none => exact congrArg Except.ok f.member?_empty
  | some v => exact reread_member? h

theorem object_members_injective : Function.Injective fun s : Styling => Json.object s.members := fun s t h =>
  Except.ok.inj (s.ofJson_members.symm.trans ((congrArg ofJson h).trans t.ofJson_members))

end Styling

end DashboardMarkup
