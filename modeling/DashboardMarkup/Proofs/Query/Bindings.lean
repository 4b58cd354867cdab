import DashboardMarkup.Document.Blocks

/-!
# Changed bindings

A data source is bound from attributes in order, and the last binding of a field counts. Changes to an
attribute list put a value where its name stands first. This is the same as a binding behind all others, as
long as the field is not bound once more behind the value that is replaced.

* `bind?_eq`: a binding writes a value into the field that its key names.
* `bindAll_set`: one change.
* `ofAttributes_applyAll`: some changes, one after another.
-/

namespace DashboardMarkup.DataSource

/-- The fields of a data source. -/
inductive Slot
  | schema
  | table
  | dimension
  | dimensions
  | measure
  | measures
  | aggregation
  | limit
  | filters
  | dateColumn
  | orderBy
  deriving DecidableEq, Repr

/-- The field that a key names. -/
def slot? (key : String) : Option Slot :=
  match trimmed key with
  | "schema" => some .schema
  | "table" => some .table
  | "dimension" => some .dimension
  | "dimensions" => some .dimensions
  | "measure" => some .measure
  | "measures" => some .measures
  | "agg" | "aggregation" => some .aggregation
  | "limit" => some .limit
  | "where" => some .filters
  | "dateColumn" | "date-column" => some .dateColumn
  | "orderBy" | "order-by" => some .orderBy
  | _ => none

/-- Writes a trimmed value into a field. -/
def fillSlot (ds : DataSource) (value : String) : Slot → DataSource
  | .schema => { ds with schema := nonempty? value }
  | .table => { ds with table := nonempty? value }
  | .dimension => { ds with dimension := nonempty? value }
  | .dimensions => { ds with dimensions := splitTopLevel value.toList }
  | .measure => { ds with measure := nonempty? value }
  | .measures => { ds with measures := splitTopLevel value.toList }
  | .aggregation => { ds with aggregation := (nonempty? value).map raised }
  | .limit => { ds with limit := (Whole.count? value.toList).or ds.limit }
  | .filters => { ds with filters := Filter.readAll value.toList }
  | .dateColumn => { ds with dateColumn := nonempty? value }
  | .orderBy => { ds with orderBy := nonempty? value }

/-- A value that is written into a field in place of any other one: a limit has to be a count. -/
def Fits (value : String) (s : Slot) : Prop :=
  s = .limit → (Whole.count? value.toList).isSome = true

/-- Two keys name the same field. -/
def SameField (key other : String) : Prop :=
  ∃ s, slot? key = some s ∧ slot? other = some s

/-- **A binding writes its value into the field that its key names.** -/
theorem bind?_eq (ds : DataSource) (b : Attribute) :
    ds.bind? b = (slot? b.name).map (ds.fillSlot (trimmed b.value)) := by
  unfold bind? slot?
  generalize trimmed b.name = key
  generalize trimmed b.value = value
  simp only
  split
  case h_9 =>
    show _ = some { ds with limit := (Whole.count? value.toList).or ds.limit }
    cases Whole.count? value.toList <;> rfl
  case h_15 => simp [*]
  all_goals rfl

/-- Different fields are written in any order. -/
theorem fillSlot_comm (ds : DataSource) {s t : Slot} (h : s ≠ t) (u v : String) :
    (ds.fillSlot u s).fillSlot v t = (ds.fillSlot v t).fillSlot u s := by
  cases s <;> cases t <;> first | rfl | exact absurd rfl h

/-- Of two values for the same field the second one stays. -/
theorem fillSlot_fillSlot (ds : DataSource) {s : Slot} (u : String) {v : String} (h : Fits v s) :
    (ds.fillSlot u s).fillSlot v s = ds.fillSlot v s := by
  cases s
  case limit =>
    obtain ⟨n, hn⟩ := Option.isSome_iff_exists.mp (h rfl)
    simp only [fillSlot, hn, Option.some_or]
  all_goals rfl

/-- A data source with a binding in it. -/
def bound (ds : DataSource) (b : Attribute) : DataSource :=
  (ds.bind? b).getD ds

/-- A data source with some bindings in it, one after another. -/
def bindAll (ds : DataSource) (bindings : Attributes) : DataSource :=
  bindings.foldl bound ds

theorem bound_of_slot {b : Attribute} {s : Slot} (h : slot? b.name = some s) (ds : DataSource) :
    ds.bound b = ds.fillSlot (trimmed b.value) s := by
  unfold bound
  rw [bind?_eq, h]
  rfl

theorem bound_of_none {b : Attribute} (h : slot? b.name = none) (ds : DataSource) : ds.bound b = ds := by
  unfold bound
  rw [bind?_eq, h]
  rfl

/-- A field is written before bindings of others as well as behind them. -/
theorem bindAll_fillSlot {s : Slot} {bindings : Attributes} (h : ∀ b ∈ bindings, slot? b.name ≠ some s)
    (ds : DataSource) (v : String) :
    (ds.fillSlot v s).bindAll bindings = (ds.bindAll bindings).fillSlot v s := by
  induction bindings generalizing ds with
  | nil => rfl
  | cons b rest ih =>
    have hfirst : (ds.fillSlot v s).bound b = (ds.bound b).fillSlot v s := by
      cases hb : slot? b.name with
      | none => rw [bound_of_none hb, bound_of_none hb]
      | some t =>
        have hne : s ≠ t := by
          rintro rfl
          exact h b List.mem_cons_self hb
        rw [bound_of_slot hb, bound_of_slot hb, fillSlot_comm ds hne]
    show bindAll ((ds.fillSlot v s).bound b) rest = _
    rw [hfirst, ih fun c hc => h c (List.mem_cons_of_mem b hc)]
    rfl

/-- No binding behind one with a key fills the same field. -/
def LastOfField (bindings : Attributes) (key : String) : Prop :=
  bindings.Pairwise fun b c => b.name = key → ¬SameField c.name key

/-- **One change is a binding behind all others.** -/
theorem bindAll_set {bindings : Attributes} {key value : String} (hlast : LastOfField bindings key)
    (hfits : ∀ s, slot? key = some s → Fits (trimmed value) s) (ds : DataSource) :
    ds.bindAll (bindings.set key value) = (ds.bindAll bindings).bound ⟨key, value⟩ := by
  induction bindings generalizing ds with
  | nil => rfl
  | cons b rest ih =>
    obtain ⟨hrivals, hrest⟩ := List.pairwise_cons.mp hlast
    rw [Attributes.set]
    by_cases hname : b.name = key
    · rw [if_pos hname]
      show bindAll (ds.bound ⟨key, value⟩) rest = (bindAll (ds.bound b) rest).bound ⟨key, value⟩
      cases hslot : slot? key with
      | none =>
        have hb : slot? b.name = none := by rw [hname, hslot]
        rw [@bound_of_none ⟨key, value⟩ hslot, @bound_of_none ⟨key, value⟩ hslot, bound_of_none hb]
      | some s =>
        have hb : slot? b.name = some s := by rw [hname, hslot]
        have hother : ∀ c ∈ rest, slot? c.name ≠ some s :=
          fun c hc hsame => hrivals c hc hname ⟨s, hsame, hslot⟩
        rw [@bound_of_slot ⟨key, value⟩ s hslot, @bound_of_slot ⟨key, value⟩ s hslot, bound_of_slot hb,
          bindAll_fillSlot hother, bindAll_fillSlot hother, fillSlot_fillSlot _ _ (hfits s hslot)]
    · rw [if_neg hname]
      exact ih hrest (ds.bound b)

/-! ## Some changes -/

theorem name_of_mem_set {attrs : Attributes} {key value : String} {c : Attribute}
    (h : c ∈ attrs.set key value) : (∃ b ∈ attrs, b.name = c.name) ∨ c.name = key := by
  induction attrs with
  | nil => exact Or.inr (congrArg Attribute.name (List.mem_singleton.mp h))
  | cons a rest ih =>
    rw [Attributes.set] at h
    by_cases hname : a.name = key
    · rw [if_pos hname] at h
      rcases List.mem_cons.mp h with rfl | h
      · exact Or.inr rfl
      · exact Or.inl ⟨c, List.mem_cons_of_mem a h, rfl⟩
    · rw [if_neg hname] at h
      rcases List.mem_cons.mp h with rfl | h
      · exact Or.inl ⟨c, List.mem_cons_self, rfl⟩
      · exact (ih h).imp (fun ⟨b, hb, hc⟩ => ⟨b, List.mem_cons_of_mem a hb, hc⟩) id

/-- A change of another field, or of the same key, leaves the last binding of a field the last one. -/
theorem LastOfField.set {attrs : Attributes} {key : String} (h : LastOfField attrs key)
    {other : String} (value : String) (hother : SameField other key → other = key) :
    LastOfField (attrs.set other value) key := by
  induction attrs with
  | nil => exact List.pairwise_singleton _ _
  | cons a rest ih =>
    obtain ⟨hrivals, hrest⟩ := List.pairwise_cons.mp h
    rw [Attributes.set]
    by_cases hname : a.name = other
    · rw [if_pos hname]
      exact List.pairwise_cons.mpr ⟨fun c hc hkey => hrivals c hc (hname.trans hkey), hrest⟩
    · rw [if_neg hname]
      refine List.pairwise_cons.mpr ⟨fun c hc hkey hsame => ?_, ih hrest⟩
      rcases name_of_mem_set hc with ⟨b, hb, hbc⟩ | hc
      · exact hrivals b hb hkey (by rw [hbc]; exact hsame)
      · rw [hc] at hsame
        exact hname (hkey.trans (hother hsame).symm)

/-- **Changes that are the same as bindings behind all others**: each of them replaces the last binding of its
field, or none; those of the same field have the same key; and a limit is set to a count. -/
structure Settles (attrs fields : Attributes) : Prop where
  last : ∀ b ∈ fields, LastOfField attrs b.name
  spelling : fields.Pairwise fun b c => SameField b.name c.name → b.name = c.name
  fits : ∀ b ∈ fields, ∀ s, slot? b.name = some s → Fits (trimmed b.value) s

/-- The changes that set some fields. -/
def changes (fields : Attributes) : List Attributes.Change :=
  fields.map fun b => .set b.name b.value

theorem bindAll_applyAll {attrs fields : Attributes} (h : Settles attrs fields) (ds : DataSource) :
    ds.bindAll (attrs.applyAll (changes fields)) = ds.bindAll (attrs ++ fields) := by
  induction fields generalizing attrs with
  | nil => rw [List.append_nil]; rfl
  | cons b rest ih =>
    obtain ⟨hspelling, hrest⟩ := List.pairwise_cons.mp h.spelling
    have hnext : Settles (attrs.set b.name b.value) rest :=
      ⟨fun c hc => (h.last c (List.mem_cons_of_mem b hc)).set b.value (hspelling c hc), hrest,
        fun c hc => h.fits c (List.mem_cons_of_mem b hc)⟩
    have hset := bindAll_set (h.last b List.mem_cons_self) (h.fits b List.mem_cons_self) ds
    calc ds.bindAll ((attrs.set b.name b.value).applyAll (changes rest))
        = (ds.bindAll (attrs.set b.name b.value)).bindAll rest := by
          rw [ih hnext]
          exact List.foldl_append
      _ = ((ds.bindAll attrs).bound b).bindAll rest := by rw [hset]
      _ = ds.bindAll (attrs ++ b :: rest) := by
          unfold bindAll
          rw [List.foldl_append, List.foldl_cons]

/-- **Such changes give the data source of the attributes with the new ones behind them.** -/
theorem ofAttributes_applyAll {attrs fields : Attributes} (h : Settles attrs fields) :
    ofAttributes (attrs.applyAll (changes fields)) = ofAttributes (attrs ++ fields) := by
  have hall : (attrs.applyAll (changes fields)).foldl (fun (ds : DataSource) b => (ds.bind? b).getD ds) {} =
      (attrs ++ fields).foldl (fun (ds : DataSource) b => (ds.bind? b).getD ds) {} := bindAll_applyAll h {}
  unfold ofAttributes ofBindings
  rw [hall]

end DashboardMarkup.DataSource
