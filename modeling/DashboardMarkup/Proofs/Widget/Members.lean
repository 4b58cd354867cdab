import DashboardMarkup.Proofs.Style.Reread
import DashboardMarkup.Widget.Config

/-!
# What a configuration has for a key

A configuration is a map from keys to values, too, but it has a place of its own for some keys: a key figure for all
settings, a chart for its styling, and a list of insights for a title and items. What lies there is read from a value
and written again, so that it need not be the value it was. All other keys are free.

* `Config.member?`, `Config.reread`: what there is for a key, and what a value for it becomes.
* `Config.Tidy`: the free members are sorted, and none has a key with a place of its own.
* `Config.find?_written`: what is written for a key.
* `Config.reread_member?`: it is read as it is.
-/

namespace DashboardMarkup

/-! ## Links and items -/

/-- A link that has been written is read as it was. -/
theorem Link.ofJson_members (l : Link) : Link.ofJson (.object l.members) = .ok l := by
  obtain ⟨_ | text, _ | href⟩ := l <;> rfl

/-- So is an item. -/
theorem Item.ofJson_members (i : Item) : Item.ofJson (.object i.members) = .ok i := by
  obtain ⟨id, _ | variant, _ | icon, _ | label, _ | ⟨_ | text, _ | href⟩, _ | tail⟩ := i <;> rfl

namespace Item

/-- The member for a list of items, unless it is empty. -/
def list? (items : List Item) : Option Json :=
  if items.isEmpty then none else some (.array (items.map fun i => .object i.members))

theorem asList_list (items : List Item) :
    Json.asList ofJson (.array (items.map fun i => .object i.members)) = .ok items :=
  Json.asList_map _ ofJson_members items

theorem field?_list? (items : List Item) :
    Json.field? "items" (fun v => v) (list? items) =
      if items.isEmpty then [] else [("items", .array (items.map fun i => .object i.members))] := by
  unfold list?
  split <;> rfl

theorem list?_injective : Function.Injective list? := by
  intro items items' h
  unfold list? at h
  cases items with
  | nil => cases items' with
    | nil => rfl
    | cons i is => cases h
  | cons i is => cases items' with
    | nil => cases h
    | cons j js =>
      have hread := asList_list (i :: is)
      rw [Option.some.inj h, asList_list] at hread
      exact (Except.ok.inj hread).symm

end Item

namespace Config

/-! ## Keys -/

/-- The free members. -/
def extra : Config → Json.Object
  | kpi _ extra => extra
  | chart _ _ extra => extra
  | insights2 _ _ extra => extra
  | plain extra => extra

/-- Whether a configuration has a place of its own for a key. -/
def isOwn : Config → String → Bool
  | kpi _ _, key => (Styling.Field.ofKey? key).isSome
  | chart _ _ _, key => key == "styling"
  | insights2 _ _ _, key => key == "items" || key == "title"
  | plain _, _ => false

/-- **The free members are in order**, and have no key for which there is a place. -/
structure Tidy (c : Config) : Prop where
  sorted : c.extra.Sorted
  apart : ∀ key, c.isOwn key = true → c.extra.find? key = none

/-- What a configuration has for a key. -/
def member? : Config → String → Option Json
  | kpi styling extra, key =>
    match Styling.Field.ofKey? key with
    | some f => styling.member? f
    | none => extra.find? key
  | chart _ styling extra, key =>
    if key = "styling" then styling.map fun s => .object s.members else extra.find? key
  | insights2 title items extra, key =>
    if key = "items" then Item.list? items
    else if key = "title" then title.map .string
    else extra.find? key
  | plain extra, key => extra.find? key

/-- What a configuration would have for a key, were it given a value. -/
def reread : Config → String → Json → Except Json.Mismatch (Option Json)
  | kpi _ _, key =>
    match Styling.Field.ofKey? key with
    | some f => f.reread .counted
    | none => fun v => .ok (some v)
  | chart _ _ _, key =>
    if key = "styling" then fun v => (Json.optional Styling.ofJson v).map (Option.map fun s => .object s.members)
    else fun v => .ok (some v)
  | insights2 _ _ _, key =>
    if key = "items" then fun v => (Json.asList Item.ofJson v).map Item.list?
    else if key = "title" then fun v => (Json.optional Json.asText v).map (Option.map .string)
    else fun v => .ok (some v)
  | plain _, _ => fun v => .ok (some v)

variable {c : Config} {key : String} {v : Json}

/-- A free key has what its member has. -/
theorem member?_of_free (h : c.isOwn key = false) : c.member? key = c.extra.find? key := by
  cases c with
  | kpi styling extra =>
    have hnone : Styling.Field.ofKey? key = none := by simpa [isOwn] using h
    simp only [member?, hnone]
    rfl
  | chart kind styling extra => exact if_neg (by simpa [isOwn] using h)
  | insights2 title items extra =>
    obtain ⟨hitems, htitle⟩ : key ≠ "items" ∧ key ≠ "title" := by simpa [isOwn] using h
    exact (if_neg hitems).trans (if_neg htitle)
  | plain extra => rfl

/-- Any value may stand for it. -/
theorem reread_of_free (h : c.isOwn key = false) : c.reread key = fun v => .ok (some v) := by
  cases c with
  | kpi styling extra =>
    have hnone : Styling.Field.ofKey? key = none := by simpa [isOwn] using h
    simp only [reread, hnone]
  | chart kind styling extra => exact if_neg (by simpa [isOwn] using h)
  | insights2 title items extra =>
    obtain ⟨hitems, htitle⟩ : key ≠ "items" ∧ key ≠ "title" := by simpa [isOwn] using h
    exact (if_neg hitems).trans (if_neg htitle)
  | plain extra => rfl

/-! ## Writing and reading -/

/-- **What is written for a key** is what there is for it. -/
theorem find?_written (h : c.Tidy) (key : String) : (Json.Object.ofMembers c.members).find? key = c.member? key := by
  have hextra : Json.Object.ofMembers c.extra = c.extra := h.sorted.ofMembers_eq
  have hown := h.apart key
  cases c with
  | kpi styling extra =>
    simp only [members, member?, isOwn, Config.extra] at hextra hown ⊢
    rw [Json.Object.find?_ofMembers_append, hextra, Json.Object.find?_ofMembers styling.nodup_members,
      styling.find?_members]
    cases hkey : Styling.Field.ofKey? key with
    | none => exact Option.or_none
    | some f => rw [hown (by rw [hkey]; rfl), Option.none_or, Option.bind_some]
  | chart kind styling extra =>
    simp only [members, member?, isOwn, Config.extra] at hextra hown ⊢
    rw [Json.Object.find?_ofMembers_append, hextra, Json.Object.find?_ofMembers (Json.nodup_field? _ _ _),
      Json.find?_field?]
    by_cases hkey : key = "styling"
    · rw [if_pos hkey, if_pos hkey, hown (beq_iff_eq.mpr hkey), Option.none_or]
    · rw [if_neg hkey, if_neg hkey, Option.or_none]
  | insights2 title items extra =>
    simp only [members, member?, isOwn, Config.extra] at hextra hown ⊢
    rw [Json.Object.find?_ofMembers_append, hextra, Json.Object.find?_ofMembers_append,
      Json.Object.find?_ofMembers (Json.nodup_field? _ _ _), Json.find?_field?, ← Item.field?_list?,
      Json.Object.find?_ofMembers (Json.nodup_field? _ _ _), Json.find?_field?]
    by_cases hitems : key = "items"
    · have htitle : key ≠ "title" := hitems ▸ by decide
      rw [if_pos hitems, if_pos hitems, if_neg htitle, hown (by simp [hitems]), Option.none_or, Option.or_none,
        Option.map_id_fun']
      rfl
    · by_cases htitle : key = "title"
      · rw [if_neg hitems, if_neg hitems, if_pos htitle, if_pos htitle, hown (by simp [htitle]), Option.none_or,
          Option.none_or]
      · rw [if_neg hitems, if_neg hitems, if_neg htitle, if_neg htitle, Option.none_or, Option.or_none]
  | plain extra => exact congrArg (Json.Object.find? · key) hextra

/-- **What has been written is read as it is.** -/
theorem reread_member? (h : c.member? key = some v) : c.reread key v = .ok (some v) := by
  cases hown : c.isOwn key with
  | false => rw [reread_of_free hown]
  | true =>
    cases c with
    | kpi styling extra =>
      obtain ⟨f, hf⟩ := Option.isSome_iff_exists.mp hown
      simp only [member?, reread, hf] at h ⊢
      exact Styling.reread_member? h
    | chart kind styling extra =>
      obtain rfl : key = "styling" := by simpa [isOwn] using hown
      simp only [member?, if_true] at h
      obtain ⟨s, -, rfl⟩ := Option.map_eq_some_iff.mp h
      have hread : Json.optional Styling.ofJson (.object s.members) = .ok (some s) :=
        Json.optional_eq_some (by simp) s.ofJson_members
      simp only [reread, if_true, hread]
      rfl
    | insights2 title items extra =>
      by_cases hitems : key = "items"
      · subst hitems
        simp only [member?, if_true] at h
        unfold Item.list? at h
        split at h
        · cases h
        · next hne =>
          obtain rfl := Option.some.inj h
          simp only [reread, if_true, Item.asList_list]
          exact congrArg Except.ok (if_neg hne)
      · obtain rfl : key = "title" := by simpa [isOwn, hitems] using hown
        simp only [member?, if_neg hitems, if_true] at h
        obtain ⟨t, -, rfl⟩ := Option.map_eq_some_iff.mp h
        simp only [reread, if_neg hitems, if_true]
        rfl
    | plain extra => cases hown

end Config

end DashboardMarkup
