import DashboardMarkup.Proofs.Document.Slots
import DashboardMarkup.Proofs.Widget.Members

/-!
# Laying objects over a configuration

A configuration takes an object by writing all it has, laying the object over that and reading the result. Nothing is
lost on the way, so that each key has what the object has for it, once read, and what it had before if the object has
nothing. Two objects one after the other are therefore as good as one.

* `Config.readAs_eq_ok_iff`: what is read from an object.
* `Config.merge_eq_ok_iff`: what there is for each key once an object has been laid over.
* `Config.Reached`: the configurations of a kind that a document can bring about.
* `Config.merges_as_one`: objects that are refused, empty objects, and two objects in a row.
-/

namespace DashboardMarkup

namespace Config

/-! ## Reading -/

section

theorem elim_ok (v? : Option Json) :
    v?.elim (.ok none) (fun v => .ok (some v)) = (.ok v? : Except Json.Mismatch (Option Json)) := by
  cases v? <;> rfl

variable {α : Type} {write : α → Option Json}

/-- What is written of a value tells which value it is. -/
theorem elim_map_eq_ok_iff (hwrite : Function.Injective write) (empty : α) (hempty : write empty = none)
    (read : Json → Except Json.Mismatch α) (v? : Option Json) (a : α) :
    v?.elim (.ok none) (fun v => (read v).map write) = .ok (write a) ↔ v?.elim (.ok empty) read = .ok a := by
  cases v? with
  | none =>
    rw [Option.elim_none, Option.elim_none, ← hempty, Except.ok.injEq, Except.ok.injEq, hwrite.eq_iff]
  | some v =>
    rw [Option.elim_some, Option.elim_some]
    cases read v with
    | error mismatch => exact iff_of_false (by rintro ⟨⟩) (by rintro ⟨⟩)
    | ok b => exact (Except.ok.injEq _ _).to_iff.trans (hwrite.eq_iff.trans (Except.ok.injEq _ _).to_iff.symm)

end

/-- A configuration of the same form that is read from members. -/
def readAs (c : Config) (o : Json.Object) : Except Json.Mismatch Config :=
  match c with
  | kpi _ _ => kpiOfMembers o
  | chart kind _ _ => chartOfMembers kind o
  | insights2 _ _ _ => insights2OfMembers o
  | plain _ => .ok (.plain o)

variable {c c' : Config} {o : Json.Object}

theorem merge_eq_readAs (h : c.Tidy) (patch : Json.Object) :
    c.merge patch = c.readAs ((Json.Object.ofMembers c.members).overlay patch) := by
  cases c with
  | plain extra =>
    have hextra : Json.Object.ofMembers extra = extra := h.sorted.ofMembers_eq
    simp only [merge, readAs, members, hextra]
  | _ => rfl

/-- Configurations of the same form have places for the same keys. -/
theorem isOwn_congr (h : c'.emptied = c.emptied) : c'.isOwn = c.isOwn := by
  have hemptied (c : Config) : c.emptied.isOwn = c.isOwn := by cases c <;> rfl
  rw [← hemptied c', h, hemptied]

/-- What a value becomes depends only on the form. -/
theorem reread_congr (h : c'.emptied = c.emptied) : c'.reread = c.reread := by
  have hemptied (c : Config) : c.emptied.reread = c.reread := by cases c <;> rfl
  rw [← hemptied c', h, hemptied]

theorem emptied_readAs (h : c.readAs o = .ok c') : c'.emptied = c.emptied := by
  cases c with
  | kpi styling extra => exact emptied_kpiOfMembers h
  | chart chart styling extra => exact emptied_chartOfMembers h
  | insights2 title items extra => exact emptied_insights2OfMembers h
  | plain extra =>
    obtain rfl := Except.ok.inj h
    rfl

theorem kpiOfMembers_eq_ok_iff (ho : o.Sorted) {styling : Styling} {extra : Json.Object} :
    kpiOfMembers o = .ok (kpi styling extra) ↔
      (∀ f : Styling.Field, (o.find? f.key).elim (.ok none) (f.reread .counted) = .ok (styling.member? f)) ∧
        extra = o.filter fun m => !(Styling.Field.ofKey? m.1).isSome := by
  have hfind (f : Styling.Field) :
      Json.Object.find? (o.filter fun m => (Styling.Field.ofKey? m.1).isSome) f.key = o.find? f.key := by
    rw [o.find?_filter fun key => (Styling.Field.ofKey? key).isSome, f.ofKey?_key]
    rfl
  have hread : Json.setMembers (Styling.setMember .counted) {} (o.filter fun m => (Styling.Field.ofKey? m.1).isSome) =
      .ok styling ↔
        ∀ f : Styling.Field, (o.find? f.key).elim (.ok none) (f.reread .counted) = .ok (styling.member? f) := by
    refine (Styling.setMembers_eq_ok_iff (ho.filter _).nodup).trans (forall_congr' fun f => ?_)
    rw [hfind, f.member?_empty]
  rw [← hread]
  constructor
  · intro h
    obtain ⟨read, hstyling, h⟩ := exists_of_bind h
    obtain ⟨rfl, rfl⟩ := Config.kpi.inj (Except.ok.inj h)
    exact ⟨hstyling, rfl⟩
  · rintro ⟨hstyling, rfl⟩
    unfold kpiOfMembers
    simp only [hstyling]
    rfl

theorem chartOfMembers_eq_ok_iff {kind : ChartKind} {styling : Option Styling} {extra : Json.Object} :
    chartOfMembers kind o = .ok (chart kind styling extra) ↔
      (o.find? "styling").elim (.ok none) (Json.optional Styling.ofJson) = .ok styling ∧ extra = o.erase "styling" := by
  have heq : chartOfMembers kind o = (o.find? "styling").elim (.ok none) (Json.optional Styling.ofJson) >>=
      fun styling => .ok (chart kind styling (o.erase "styling")) := by
    unfold chartOfMembers
    cases o.find? "styling" <;> rfl
  rw [heq]
  constructor
  · intro h
    obtain ⟨read, hstyling, h⟩ := exists_of_bind h
    obtain ⟨-, rfl, rfl⟩ := Config.chart.inj (Except.ok.inj h)
    exact ⟨hstyling, rfl⟩
  · rintro ⟨hstyling, rfl⟩
    rw [hstyling]
    rfl

theorem insights2OfMembers_eq_ok_iff {title : Option String} {items : List Item} {extra : Json.Object} :
    insights2OfMembers o = .ok (insights2 title items extra) ↔
      (o.find? "items").elim (.ok []) (Json.asList Item.ofJson) = .ok items ∧
        (o.find? "title").elim (.ok none) (Json.optional Json.asText) = .ok title ∧
        extra = (o.erase "items").erase "title" := by
  have heq : insights2OfMembers o = (o.find? "items").elim (.ok []) (Json.asList Item.ofJson) >>= fun items =>
      (o.find? "title").elim (.ok none) (Json.optional Json.asText) >>= fun title =>
        .ok (insights2 title items ((o.erase "items").erase "title")) := by
    unfold insights2OfMembers
    cases o.find? "items" <;> cases o.find? "title" <;> rfl
  rw [heq]
  constructor
  · intro h
    obtain ⟨readItems, hitems, h⟩ := exists_of_bind h
    obtain ⟨readTitle, htitle, h⟩ := exists_of_bind h
    obtain ⟨rfl, rfl, rfl⟩ := Config.insights2.inj (Except.ok.inj h)
    exact ⟨hitems, htitle, rfl⟩
  · rintro ⟨hitems, htitle, rfl⟩
    rw [hitems, htitle]
    rfl

/-- What is read has its own members from the values for its own keys, and all other members are free. -/
theorem readAs_eq_ok_iff_own (ho : o.Sorted) (hform : c'.emptied = c.emptied) :
    c.readAs o = .ok c' ↔
      (∀ key, c.isOwn key = true → (o.find? key).elim (.ok none) (c.reread key) = .ok (c'.member? key)) ∧
        c'.extra = o.filter fun m => !c.isOwn m.1 := by
  cases c with
  | kpi styling extra => cases c' with
    | kpi styling' extra' =>
      refine (kpiOfMembers_eq_ok_iff ho).trans (and_congr_left' ⟨fun h key hown => ?_, fun h f => ?_⟩)
      · obtain ⟨f, hf⟩ := Option.isSome_iff_exists.mp hown
        obtain rfl := Styling.Field.key_of_ofKey? hf
        simp only [reread, member?, hf]
        exact h f
      · have hkey := h f.key (by simp [isOwn, f.ofKey?_key])
        simp only [reread, member?, f.ofKey?_key] at hkey
        exact hkey
    | _ => cases hform
  | chart kind styling extra => cases c' with
    | chart kind' styling' extra' =>
      obtain ⟨rfl, -, -⟩ := Config.chart.inj hform
      have hwrite := Option.map_injective Styling.object_members_injective
      refine chartOfMembers_eq_ok_iff.trans (and_congr_left' ?_)
      refine (elim_map_eq_ok_iff hwrite none rfl (Json.optional Styling.ofJson) _ styling').symm.trans
        ⟨fun h key hown => ?_, fun h => h "styling" rfl⟩
      obtain rfl : key = "styling" := beq_iff_eq.mp hown
      exact h
    | _ => cases hform
  | insights2 title items extra => cases c' with
    | insights2 title' items' extra' =>
      have hwrite : Function.Injective (Option.map Json.string) := Option.map_injective fun _ _ => Json.string.inj
      have hitems := elim_map_eq_ok_iff Item.list?_injective [] rfl (Json.asList Item.ofJson) (o.find? "items") items'
      have htitle := elim_map_eq_ok_iff hwrite none rfl (Json.optional Json.asText) (o.find? "title") title'
      rw [readAs, insights2OfMembers_eq_ok_iff, ← hitems, ← htitle, Json.Object.erase_erase, ← and_assoc]
      refine and_congr_left' ⟨fun h key hown => ?_, fun h => ⟨h "items" rfl, h "title" rfl⟩⟩
      rcases Bool.or_eq_true_iff.mp hown with hkey | hkey
      · obtain rfl : key = "items" := beq_iff_eq.mp hkey
        exact h.1
      · obtain rfl : key = "title" := beq_iff_eq.mp hkey
        exact h.2
    | _ => cases hform
  | plain extra => cases c' with
    | plain extra' =>
      have hkeep : (o.filter fun m => !(plain extra).isOwn m.1) = o := List.filter_eq_self.mpr fun _ _ => rfl
      rw [hkeep]
      refine ⟨fun h => ⟨fun key hown => ?_, ?_⟩, fun h => ?_⟩
      · cases hown
      · exact (Config.plain.inj (Except.ok.inj h)).symm
      · exact congrArg (fun o => Except.ok (plain o)) h.2.symm
    | _ => cases hform

/-- **What is read from a sorted object** has for each key what the value of that key becomes. -/
theorem readAs_eq_ok_iff (ho : o.Sorted) :
    c.readAs o = .ok c' ↔ c'.emptied = c.emptied ∧ c'.Tidy ∧
      ∀ key, (o.find? key).elim (.ok none) (c.reread key) = .ok (c'.member? key) := by
  by_cases hform : c'.emptied = c.emptied
  · have hown := isOwn_congr hform
    rw [readAs_eq_ok_iff_own ho hform]
    constructor
    · rintro ⟨hread, hextra⟩
      have hfind (key : String) : c'.extra.find? key = if c.isOwn key then none else o.find? key := by
        rw [hextra, o.find?_filter fun key => !c.isOwn key]
        cases c.isOwn key <;> rfl
      refine ⟨hform, ⟨hextra ▸ ho.filter _, fun key hkey => ?_⟩, fun key => ?_⟩
      · rw [hfind, if_pos (hown ▸ hkey)]
      · cases hkey : c.isOwn key with
        | true => exact hread key hkey
        | false =>
          rw [member?_of_free (hown ▸ hkey), hfind, reread_of_free hkey, hkey]
          exact elim_ok _
    · rintro ⟨-, htidy, hread⟩
      refine ⟨fun key _ => hread key, htidy.sorted.ext (ho.filter _) fun key => ?_⟩
      rw [o.find?_filter fun key => !c.isOwn key]
      cases hkey : c.isOwn key with
      | true => exact htidy.apart key (hown ▸ hkey)
      | false =>
        have hfree := hread key
        rw [reread_of_free hkey, elim_ok, member?_of_free (hown ▸ hkey)] at hfree
        exact (Except.ok.inj hfree).symm
  · exact ⟨fun h => absurd (emptied_readAs h) hform, fun h => absurd h.1 hform⟩

/-! ## Laying over -/

/-- **What an object changes.** Laid over a configuration, it gives each key that it has what its value becomes
there, and every other key keeps what it had. -/
theorem merge_eq_ok_iff (h : c.Tidy) (patch : Json.Object) :
    c.merge patch = .ok c' ↔ c'.emptied = c.emptied ∧ c'.Tidy ∧
      ∀ key, ((Json.Object.ofMembers patch).find? key).elim (.ok (c.member? key)) (c.reread key) =
        .ok (c'.member? key) := by
  have hkept (key : String) : (c.member? key).elim (.ok none) (c.reread key) = .ok (c.member? key) := by
    cases hkey : c.member? key with
    | none => rfl
    | some v => exact reread_member? hkey
  rw [merge_eq_readAs h, readAs_eq_ok_iff ((Json.Object.sorted_ofMembers _).overlay patch)]
  refine and_congr_right' (and_congr_right' (forall_congr' fun key => ?_))
  rw [Json.Object.find?_overlay, find?_written h]
  cases (Json.Object.ofMembers patch).find? key with
  | none => rw [Option.none_or, hkept, Option.elim_none]
  | some v => rfl

/-- **One object after the other** is as good as the second one laid over the first. -/
theorem merge_merge (h : c.Tidy) {first : Json.Object} (hfirst : first.Sorted) {c₁ : Config}
    (h₁ : c.merge first = .ok c₁) (second : Json.Object) (c₂ : Config) :
    c₁.merge second = .ok c₂ ↔ c.merge (first.overlay second) = .ok c₂ := by
  obtain ⟨hform, htidy, hread⟩ := (merge_eq_ok_iff h first).mp h₁
  rw [merge_eq_ok_iff htidy, merge_eq_ok_iff h, hform, reread_congr hform]
  refine and_congr_right' (and_congr_right' (forall_congr' fun key => ?_))
  rw [(hfirst.overlay second).ofMembers_eq, Json.Object.find?_overlay]
  cases (Json.Object.ofMembers second).find? key with
  | none => rw [Option.none_or, Option.elim_none, ← hread key, hfirst.ofMembers_eq]
  | some v => rfl

theorem merge_nil (h : c.Tidy) : c.merge [] = .ok c :=
  (merge_eq_ok_iff h []).mpr ⟨rfl, h, fun _ => rfl⟩

/-! ## Configurations that are reached -/

/-- **The configurations of a kind that a document can bring about**: begun empty, they change by objects that are laid
over them, by changes of their styling, such as tokens are, and by items. -/
inductive Reached (kind : WidgetKind) : Config → Prop
  | new : Reached kind (forKind kind)
  | merge {c c' : Config} (patch : Json.Object) (hc : Reached kind c) (h : c.merge patch = .ok c') : Reached kind c'
  | styled {c c' : Config} (f : Styling → Styling) (hc : Reached kind c) (h : c.mapStyling? f = some c') :
    Reached kind c'
  | items {c : Config} (heading : Option String) (more : List Item) (hc : Reached kind c) :
    Reached kind (c.addItems heading more)

theorem tidy_forKind (kind : WidgetKind) : (forKind kind).Tidy := by
  cases kind <;> exact ⟨List.Pairwise.nil, fun _ _ => rfl⟩

/-- A change of styling leaves the free members alone. -/
theorem Tidy.mapStyling? {f : Styling → Styling} (hc : c.Tidy) (h : c.mapStyling? f = some c') : c'.Tidy := by
  obtain ⟨styling, extra, rfl, rfl⟩ | ⟨chart, styling, extra, rfl, rfl⟩ := mapStyling?_eq_some h
  · exact ⟨hc.sorted, hc.apart⟩
  · exact ⟨hc.sorted, hc.apart⟩

/-- So do items. -/
theorem Tidy.addItems (hc : c.Tidy) (heading : Option String) (more : List Item) : (c.addItems heading more).Tidy := by
  cases c with
  | insights2 title items extra => exact ⟨hc.sorted, hc.apart⟩
  | _ => exact hc

/-- **Every step keeps the free members in order.** -/
theorem Reached.tidy {kind : WidgetKind} (h : c.Reached kind) : c.Tidy := by
  induction h with
  | new => exact tidy_forKind kind
  | merge patch hc h ih => exact ((merge_eq_ok_iff ih patch).mp h).2.1
  | styled f hc h ih => exact ih.mapStyling? h
  | items heading more hc ih => exact ih.addItems heading more

/-- **Several objects act as one.** Of a configuration that a document can bring about: an object that is refused
leaves the widget as it was, the empty object changes nothing, and two objects that are both taken are taken as one,
the second laid over the first, with the same result. -/
theorem merges_as_one {kind : WidgetKind} {c : Config} (h : c.Reached kind) :
    (∀ (w : Widget) (patch : Json.Object) (mismatch : Json.Mismatch), w.config = some c →
      c.merge patch = .error mismatch → w.mergeConfig patch = (w, some mismatch)) ∧
    c.merge [] = .ok c ∧
    ∀ (first second : Json.Object) (c₁ c₂ : Config), first.Sorted → c.merge first = .ok c₁ →
      c₁.merge second = .ok c₂ → c.merge (first.overlay second) = .ok c₂ := by
  refine ⟨fun w patch mismatch hw hrefused => ?_, merge_nil h.tidy, fun first second c₁ c₂ hfirst h₁ h₂ => ?_⟩
  · have hnew : w.configOrNew = c := by
      unfold Widget.configOrNew
      rw [hw, Option.getD_some]
    unfold Widget.mergeConfig
    rw [hnew, hrefused, ← hw]
  · exact (merge_merge h.tidy hfirst h₁ second c₂).mp h₂

/-- A key figure takes a whole number for its margin and a free member; then `null` clears the margin, and a unit is
set. A switch that is a text is refused. -/
theorem merges_as_one_kpi :
    let new := forKind .kpi
    let first : Json.Object := [("marginBottom", .integer 3), ("note", .null)]
    let second : Json.Object := [("marginBottom", .null), ("unit", .string "k")]
    let c₁ := kpi { marginBottom := some (Double.ofInt 3) } [("note", .null)]
    let c₂ := kpi { unit := some "k" } [("note", .null)]
    let w : Widget := { id := "k", kind := .kpi, config := some new }
    (new.Reached .kpi ∧ first.Sorted ∧ new.merge first = .ok c₁ ∧ c₁.merge second = .ok c₂) ∧
      new.merge (first.overlay second) = .ok c₂ ∧
      new.merge [("compact", .string "on")] = .error (.wrongShape (.string "on") .boolean) ∧
      w.mergeConfig [("compact", .string "on")] = (w, some (.wrongShape (.string "on") .boolean)) := by
  intro new first second c₁ c₂ w
  have hreached : new.Reached .kpi := .new
  have hsorted : first.Sorted := by decide
  have h₁ : new.merge first = .ok c₁ := rfl
  have h₂ : c₁.merge second = .ok c₂ := rfl
  have hrefused : new.merge [("compact", .string "on")] = .error (.wrongShape (.string "on") .boolean) := rfl
  obtain ⟨hkept, -, htwo⟩ := merges_as_one hreached
  exact ⟨⟨hreached, hsorted, h₁, h₂⟩, htwo first second c₁ c₂ hsorted h₁ h₂, hrefused, hkept w _ _ rfl hrefused⟩

end Config

end DashboardMarkup
