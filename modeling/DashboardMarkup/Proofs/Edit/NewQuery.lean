import DashboardMarkup.Edit.Insert
import DashboardMarkup.Proofs.Document.Given
import DashboardMarkup.Proofs.Query.Bindings

/-!
# Queries that are written

A query is written as attributes, with its table and schema set apart, and these are set apart once more when
they are read. What is read is what was written if nothing is left to set apart.

* `Stable`: attributes that are read as they are written.
* `NewQuery.stable_attrs`: a query whose parts have no blanks around them, and no dot in the table, gives such
  attributes.
* `NewQuery.ofAttributes_attrs`: the data source that such attributes give.
-/

namespace DashboardMarkup.Edit

open Text

/-- **Attributes of a query that are read as they are written**: no value has blanks around it, and none is
empty; the table is no longer written with a schema. -/
structure Stable (query : Attributes) : Prop where
  solid : ∀ a ∈ query, Solid a.value
  table : ∀ t ∈ query.get? "table", '.' ∉ t.toList

/-! ## Setting a table apart -/

/-- A text without the white space around it, if there is more to it. -/
def given? (v : Option String) : Option String :=
  (v.map trimmed).bind nonempty?

theorem mem_given? {v : Option String} {s : String} (h : s ∈ given? v) : ∃ t ∈ v, trimmed t = s ∧ Solid s := by
  obtain ⟨given, hgiven, hs⟩ := Option.bind_eq_some_iff.mp h
  obtain ⟨t, ht, rfl⟩ := Option.map_eq_some_iff.mp hgiven
  unfold nonempty? at hs
  split at hs
  · exact absurd hs (by simp)
  · next hne =>
    obtain rfl := Option.some.inj hs
    exact ⟨t, ht, rfl, solid_trimmed fun hempty => hne (beq_iff_eq.mpr hempty)⟩

theorem solid_of_mem_given? {v : Option String} {s : String} (h : s ∈ given? v) : Solid s := by
  obtain ⟨-, -, -, hsolid⟩ := mem_given? h
  exact hsolid

theorem given?_eq_self_iff {v : Option String} : given? v = v ↔ ∀ s ∈ v, Solid s := by
  constructor
  · intro h s hs
    rw [← h] at hs
    exact solid_of_mem_given? hs
  · intro h
    cases v with
    | none => rfl
    | some s =>
      obtain ⟨htrim, hne⟩ := h s rfl
      simp [given?, htrim, nonempty?, hne]

theorem given?_given? (v : Option String) : given? (given? v) = given? v :=
  given?_eq_self_iff.mpr fun _ => solid_of_mem_given?

theorem cut?_of_not_mem {c : Char} {text : List Char} (h : c ∉ text) : cut? [c] text = none := by
  refine Option.eq_none_iff_forall_ne_some.mpr fun parts hparts => h ?_
  rw [append_of_cut? hparts]
  simp

/-- The parts of a table before and behind its first dot. -/
def parts? (table : Option String) : Option (List Char × List Char) :=
  (given? table).bind fun t => cut? ['.'] t.toList

theorem parts?_given? (table : Option String) : parts? (given? table) = parts? table := by
  rw [parts?, given?_given?, ← parts?]

theorem parts?_of_no_dot {table : Option String} (h : ∀ t ∈ given? table, '.' ∉ t.toList) : parts? table = none :=
  Option.bind_eq_none_iff.mpr fun t ht => cut?_of_not_mem (h t ht)

theorem splitTable_of_whole (schema : Option String) {table : Option String} (h : parts? table = none) :
    DataSource.splitTable schema table = (given? schema, given? table) := by
  unfold parts? given? at h
  unfold DataSource.splitTable
  simp only [h]
  rfl

theorem splitTable_of_parts (schema : Option String) {table : Option String} {front name : List Char}
    (h : parts? table = some (front, name)) :
    DataSource.splitTable schema table =
      (some ((given? schema).getD (String.ofList front)), some (String.ofList name)) := by
  unfold parts? given? at h
  unfold DataSource.splitTable
  simp only [h]
  rfl

theorem splitTable_given? (schema table : Option String) :
    DataSource.splitTable (given? schema) (given? table) = DataSource.splitTable schema table := by
  cases h : parts? table with
  | none =>
    rw [splitTable_of_whole _ h, splitTable_of_whole _ ((parts?_given? table).trans h), given?_given?,
      given?_given?]
  | some parts =>
    rw [splitTable_of_parts _ h, splitTable_of_parts _ ((parts?_given? table).trans h), given?_given?]

/-- A table without a dot is not set apart. -/
theorem splitTable_of_solid {s t : Option String} (hs : ∀ v ∈ s, Solid v) (ht : ∀ v ∈ t, Solid v)
    (hdot : ∀ v ∈ t, '.' ∉ v.toList) : DataSource.splitTable s t = (s, t) := by
  have hgiven := given?_eq_self_iff.mpr ht
  rw [splitTable_of_whole s (parts?_of_no_dot (by rwa [hgiven])), given?_eq_self_iff.mpr hs, hgiven]

/-! ## Binding the attributes -/

section

open DataSource

/-- An attribute that is written or left out. -/
theorem bindAll_attribute? {name : String} {slot : Slot} (hslot : slot? name = some slot) (v : Option String)
    (ds : DataSource) :
    ds.bindAll (attribute? name v) = (v.map fun s => ds.fillSlot (trimmed s) slot).getD ds := by
  cases v with
  | none => rfl
  | some s => exact bound_of_slot (b := ⟨name, s⟩) hslot ds

/-- The fields of a query are bound without the white space around them. -/
theorem bindAll_query (s t d m : Option String) :
    bindAll {} (attribute? "schema" s ++ attribute? "table" t ++ attribute? "dimension" d ++
      attribute? "measure" m) =
      { schema := given? s, table := given? t, dimension := given? d, measure := given? m } := by
  have hschema : bindAll {} (attribute? "schema" s) = { schema := given? s } := by
    rw [bindAll_attribute? (show slot? "schema" = some .schema by decide)]
    cases s <;> rfl
  have htable : bindAll { schema := given? s } (attribute? "table" t) =
      { schema := given? s, table := given? t } := by
    rw [bindAll_attribute? (show slot? "table" = some .table by decide)]
    cases t <;> rfl
  have hdimension : bindAll { schema := given? s, table := given? t } (attribute? "dimension" d) =
      { schema := given? s, table := given? t, dimension := given? d } := by
    rw [bindAll_attribute? (show slot? "dimension" = some .dimension by decide)]
    cases d <;> rfl
  have hmeasure : bindAll { schema := given? s, table := given? t, dimension := given? d }
      (attribute? "measure" m) =
        { schema := given? s, table := given? t, dimension := given? d, measure := given? m } := by
    rw [bindAll_attribute? (show slot? "measure" = some .measure by decide)]
    cases m <;> rfl
  have happend : ∀ (ds : DataSource) (a b : Attributes), ds.bindAll (a ++ b) = (ds.bindAll a).bindAll b :=
    fun ds a b => List.foldl_append
  rw [happend, happend, happend, hschema, htable, hdimension, hmeasure]

end

/-! ## Reading the attributes -/

namespace NewQuery

variable (q : NewQuery) (withDimension : Bool)

/-- The dimension that is written. -/
def dimensionText : Option String :=
  if withDimension then q.dimension.bind nonblank? else none

theorem attrs_eq : q.attrs withDimension =
    attribute? "schema" (DataSource.splitTable q.schema q.table).1 ++
      attribute? "table" (DataSource.splitTable q.schema q.table).2 ++
      attribute? "dimension" (q.dimensionText withDimension) ++ attribute? "measure" q.measureText :=
  rfl

theorem get?_attribute? (name other : String) (v : Option String) :
    Attributes.get? (attribute? name v) other = if name = other then v else none := by
  cases v with
  | none => simp [attribute?, Attributes.get?]
  | some s => by_cases h : name = other <;> simp [attribute?, Attributes.get?, h]

theorem get?_append (a b : Attributes) (name : String) :
    Attributes.get? (a ++ b) name = (a.get? name).or (b.get? name) := by
  unfold Attributes.get?
  rw [List.find?_append, Option.map_or]

theorem solid_of_mem_attribute? {name : String} {v : Option String} (hv : ∀ s ∈ v, Solid s) {a : Attribute}
    (h : a ∈ attribute? name v) : Solid a.value := by
  cases v with
  | none => exact absurd h List.not_mem_nil
  | some s =>
    rw [List.mem_singleton.mp h]
    exact hv s rfl

/-- A call of one of the functions that gather a measure is a text without blanks around it. -/
theorem solid_call {function : String} (h : function ∈ DataSource.aggregates) (column : String) :
    Solid (function ++ "(" ++ column ++ ")") := by
  obtain ⟨c, rest, hfunction, hc⟩ : ∃ c rest, function.toList = c :: rest ∧ isBlank c = false := by
    simp only [DataSource.aggregates, List.mem_cons, List.not_mem_nil, or_false] at h
    rcases h with rfl | rfl | rfl | rfl | rfl
    all_goals exact ⟨_, _, rfl, by decide⟩
  have hlist : (function ++ "(" ++ column ++ ")").toList = c :: ((rest ++ '(' :: column.toList) ++ [')']) := by
    simp [String.toList_append, hfunction]
  refine ⟨?_, fun hempty => ?_⟩
  · unfold trimmed
    rw [hlist, trim_eq_self hc (by decide), ← hlist, String.ofList_toList]
  · rw [hempty] at hlist
    exact absurd hlist (by simp)

/-- The values that are written. -/
theorem get?_attrs :
    (q.attrs withDimension).get? "schema" = (DataSource.splitTable q.schema q.table).1 ∧
      (q.attrs withDimension).get? "table" = (DataSource.splitTable q.schema q.table).2 ∧
      (q.attrs withDimension).get? "dimension" = q.dimensionText withDimension ∧
      (q.attrs withDimension).get? "measure" = q.measureText := by
  rw [attrs_eq]
  simp [get?_append, get?_attribute?]

theorem mem_of_get? {attrs : Attributes} {name value : String} (h : attrs.get? name = some value) :
    ∃ a ∈ attrs, a.value = value := by
  obtain ⟨a, ha, rfl⟩ := Option.map_eq_some_iff.mp h
  exact ⟨a, List.mem_of_find?_eq_some ha, rfl⟩

/-- The data source that the attributes of a query give. -/
theorem ofAttributes_eq : DataSource.ofAttributes (q.attrs withDimension) =
    let once := DataSource.splitTable q.schema q.table
    let again := DataSource.splitTable once.1 once.2
    { schema := again.1, table := again.2, dimension := given? (q.dimensionText withDimension),
      measure := given? q.measureText } := by
  have hbound := bindAll_query (DataSource.splitTable q.schema q.table).1 (DataSource.splitTable q.schema q.table).2
    (q.dimensionText withDimension) q.measureText
  rw [← attrs_eq] at hbound
  have hall : (q.attrs withDimension).foldl (fun (ds : DataSource) b => (ds.bind? b).getD ds) {} = _ := hbound
  unfold DataSource.ofAttributes DataSource.ofBindings
  simp only [hall, splitTable_given?]

/-- **The data source that the attributes of a query give**: its fields are those that were written, if these
are read as they are. -/
theorem ofAttributes_attrs (h : Stable (q.attrs withDimension)) :
    DataSource.ofAttributes (q.attrs withDimension) =
      { schema := (q.attrs withDimension).get? "schema", table := (q.attrs withDimension).get? "table",
        dimension := (q.attrs withDimension).get? "dimension",
        measure := (q.attrs withDimension).get? "measure" } := by
  obtain ⟨hschema, htable, hdimension, hmeasure⟩ := q.get?_attrs withDimension
  have hsolid : ∀ {name : String}, ∀ v ∈ (q.attrs withDimension).get? name, Solid v := fun {name} v hv => by
    obtain ⟨a, ha, rfl⟩ := mem_of_get? hv
    exact h.solid a ha
  have hgiven : ∀ {name : String}, given? ((q.attrs withDimension).get? name) = (q.attrs withDimension).get? name :=
    given?_eq_self_iff.mpr hsolid
  simp only [q.ofAttributes_eq withDimension, ← hschema, ← htable, ← hdimension, ← hmeasure, hgiven,
    splitTable_of_solid hsolid hsolid h.table]

/-- The expression for a measure has no blanks around it. -/
theorem solid_of_mem_measureText {m : String} (h : m ∈ q.measureText) : Solid m := by
  obtain ⟨given, -, hm⟩ := Option.bind_eq_some_iff.mp h
  split at hm
  · next hparen =>
    obtain rfl := Option.some.inj hm
    refine solid_trimmed fun hempty => ?_
    have hnil : trim given.toList = [] := by
      rw [← String.toList_ofList (l := trim given.toList)]
      exact congrArg String.toList hempty
    exact absurd (isBlank_of_trim_eq_nil hnil '(' (List.contains_iff_mem.mp hparen)) (by decide)
  · unfold DataSource.measureOf? at hm
    obtain ⟨column, -, rfl⟩ := Option.map_eq_some_iff.mp hm
    refine solid_call ?_ column
    split
    · next hknown => exact List.contains_iff_mem.mp hknown
    · decide

/-- The dimension that is written is the one that is asked for. -/
theorem solid_of_mem_dimensionText (hdimension : ∀ d ∈ q.dimension, trimmed d = d) {d : String}
    (h : d ∈ q.dimensionText withDimension) : Solid d := by
  unfold dimensionText at h
  split at h
  · obtain ⟨given, hgiven, hd⟩ := Option.bind_eq_some_iff.mp h
    unfold nonblank? at hd
    split at hd
    · exact absurd hd (by simp)
    · next hne =>
      obtain rfl := Option.some.inj hd
      have htrim := hdimension given hgiven
      exact ⟨htrim, fun hempty => hne (by rw [htrim, hempty]; decide)⟩
  · exact absurd h (by simp)

/-- **Attributes are read as they are written** if no dot is left in the table, and neither blanks around the parts
that it was set apart in nor around the dimension. -/
theorem stable_attrs (hdimension : ∀ d ∈ q.dimension, trimmed d = d)
    (hschema : ∀ s ∈ (DataSource.splitTable q.schema q.table).1, Solid s)
    (htable : ∀ t ∈ (DataSource.splitTable q.schema q.table).2, Solid t ∧ '.' ∉ t.toList) :
    Stable (q.attrs withDimension) := by
  constructor
  · intro a ha
    rw [attrs_eq, List.mem_append, List.mem_append, List.mem_append] at ha
    rcases ha with ((ha | ha) | ha) | ha
    · exact solid_of_mem_attribute? hschema ha
    · exact solid_of_mem_attribute? (fun t ht => (htable t ht).1) ha
    · exact solid_of_mem_attribute? (fun d hd => q.solid_of_mem_dimensionText withDimension hdimension hd) ha
    · exact solid_of_mem_attribute? (fun m hm => q.solid_of_mem_measureText hm) ha
  · rw [(q.get?_attrs withDimension).2.1]
    exact fun t ht => (htable t ht).2

end NewQuery

end DashboardMarkup.Edit
