import DashboardMarkup.Proofs.Edit.NewQuery

/-!
# Tables that are set apart twice

The table of a query is set apart from its schema at the first dot when the query is written, and what is left of
it once more when the query is read. White space is taken off around the whole table before it is cut, so the parts
may be blank, and may have blanks around them and dots of their own.

* `filled_splitTable_iff`: when the parts are not blank.
* `splitTable_splitTable_iff`: when a second time changes nothing.
* `NewQuery.set_apart_twice`: so it is for the queries that are written and read.
-/

namespace DashboardMarkup.Edit

open Text DataSource

/-! ## Parts that are not blank -/

/-- Neither the schema nor the table is blank. -/
def Filled (pair : Option String × Option String) : Prop :=
  (∀ s ∈ pair.1, trimmed s ≠ "") ∧ ∀ t ∈ pair.2, trimmed t ≠ ""

/-- A table with something behind its dot, and in front of it where that is to be the schema. -/
def FilledParts (schema table : Option String) : Prop :=
  ∀ front name, parts? table = some (front, name) →
    trimmed (String.ofList name) ≠ "" ∧ (given? schema = none → trimmed (String.ofList front) ≠ "")

theorem trimmed_ne_of_mem_given? {v : Option String} {s : String} (h : s ∈ given? v) : trimmed s ≠ "" := by
  obtain ⟨htrim, hne⟩ := solid_of_mem_given? h
  rwa [htrim]

/-- **The parts that a table is set apart in are not blank** exactly if both sides of its dot are filled. -/
theorem filled_splitTable_iff (schema table : Option String) :
    Filled (splitTable schema table) ↔ FilledParts schema table := by
  cases hparts : parts? table with
  | none =>
    rw [splitTable_of_whole schema hparts]
    constructor
    · intro _ front name h
      exact absurd (hparts.symm.trans h) (by simp)
    · intro _
      exact ⟨fun s => trimmed_ne_of_mem_given?, fun t => trimmed_ne_of_mem_given?⟩
  | some parts =>
    obtain ⟨front, name⟩ := parts
    rw [splitTable_of_parts schema hparts]
    constructor
    · rintro ⟨hschema, hname⟩ front' name' h
      obtain ⟨rfl, rfl⟩ := Prod.mk.inj (Option.some.inj (hparts.symm.trans h))
      refine ⟨hname _ rfl, fun hnone => hschema _ ?_⟩
      rw [hnone]
      rfl
    · intro h
      obtain ⟨hname, hfront⟩ := h front name hparts
      refine ⟨?_, fun t ht => by rwa [← Option.some.inj ht]⟩
      rintro s ⟨⟩
      cases hschema : given? schema with
      | none => exact hfront hschema
      | some s => exact trimmed_ne_of_mem_given? hschema

/-! ## A second time -/

/-- **A table that is set apart once and for all**: what stands behind its dot has neither another dot nor blanks
around it, and where what stands in front of it is to be the schema, there are no blanks around that. -/
def SetApart (schema table : Option String) : Prop :=
  ∀ front name, parts? table = some (front, name) →
    Solid (String.ofList name) ∧ '.' ∉ name ∧ (given? schema = none → Solid (String.ofList front))

/-- What stands behind a dot is shorter than the whole. -/
theorem length_parts?_lt {t : String} {front name : List Char} (h : parts? (some t) = some (front, name)) :
    name.length < t.toList.length := by
  obtain ⟨s, hs, hcut⟩ := Option.bind_eq_some_iff.mp h
  obtain ⟨_, ht, rfl, -⟩ := mem_given? hs
  obtain rfl := Option.some.inj ht
  have htrim : (trimmed t).toList.length ≤ t.toList.length := by
    unfold trimmed
    rw [String.toList_ofList]
    exact (length_dropEndWhile_le isBlank _).trans (length_trimStart_le _)
  exact (length_cut?_lt (by simp) hcut).trans_le htrim

/-- A text with a dot is cut. -/
theorem cut?_ne_none_of_mem {c : Char} {text : List Char} (h : c ∈ text) : cut? [c] text ≠ none := by
  induction text with
  | nil => exact absurd h List.not_mem_nil
  | cons d rest ih =>
    intro hnone
    by_cases hd : c = d
    · subst hd
      simp [cut?, stripPrefix?] at hnone
    · simp only [cut?, stripPrefix?, beq_eq_false_iff_ne.mpr hd, Bool.false_eq_true, if_false,
        Option.map_eq_none_iff] at hnone
      exact ih ((List.mem_cons.mp h).resolve_left hd) hnone

/-- A table is left as it is only if there is neither a dot in it nor white space around it. -/
theorem whole_of_splitTable {schema again : Option String} {t : String}
    (h : splitTable schema (some t) = (again, some t)) :
    again = given? schema ∧ Solid t ∧ '.' ∉ t.toList := by
  cases hparts : parts? (some t) with
  | none =>
    rw [splitTable_of_whole schema hparts] at h
    obtain ⟨hagain, hgiven⟩ := Prod.mk.inj h
    have hsolid := given?_eq_self_iff.mp hgiven t rfl
    refine ⟨hagain.symm, hsolid, fun hmem => ?_⟩
    unfold parts? at hparts
    rw [hgiven, Option.bind_some] at hparts
    exact absurd hparts (cut?_ne_none_of_mem hmem)
  | some parts =>
    obtain ⟨front, name⟩ := parts
    rw [splitTable_of_parts schema hparts] at h
    have hname : String.ofList name = t := Option.some.inj (Prod.mk.inj h).2
    have hshorter := length_parts?_lt hparts
    rw [← hname, String.toList_ofList] at hshorter
    exact absurd hshorter (Nat.lt_irrefl _)

/-- **Setting a table apart a second time changes nothing** exactly if the first time was once and for all. -/
theorem splitTable_splitTable_iff (schema table : Option String) :
    splitTable (splitTable schema table).1 (splitTable schema table).2 = splitTable schema table ↔
      SetApart schema table := by
  cases hparts : parts? table with
  | none =>
    rw [splitTable_of_whole schema hparts]
    constructor
    · intro _ front name h
      exact absurd (hparts.symm.trans h) (by simp)
    · intro _
      rw [splitTable_given?, splitTable_of_whole schema hparts]
  | some parts =>
    obtain ⟨front, name⟩ := parts
    rw [splitTable_of_parts schema hparts]
    constructor
    · intro h front' name' h'
      obtain ⟨rfl, rfl⟩ := Prod.mk.inj (Option.some.inj (hparts.symm.trans h'))
      obtain ⟨hschema, hname, hdot⟩ := whole_of_splitTable h
      rw [String.toList_ofList] at hdot
      refine ⟨hname, hdot, fun hnone => ?_⟩
      rw [hnone] at hschema
      exact given?_eq_self_iff.mp hschema.symm _ rfl
    · intro h
      obtain ⟨hname, hdot, hfront⟩ := h front name hparts
      refine splitTable_of_solid ?_ (by rintro v ⟨⟩; exact hname)
        (by rintro v ⟨⟩; rwa [String.toList_ofList])
      rintro s ⟨⟩
      cases hschema : given? schema with
      | none => exact hfront hschema
      | some s => exact solid_of_mem_given? hschema

/-! ## Queries -/

namespace NewQuery

/-- **What is read of the table and the schema of a query that was written**: they are set apart a second time. So
they are read as they were written exactly if the first time was once and for all; and neither is blank exactly if
both sides of the dot are filled. -/
theorem set_apart_twice (q : NewQuery) (withDimension : Bool) :
    let once := splitTable q.schema q.table
    let read := DataSource.ofAttributes (q.attrs withDimension)
    (read.schema, read.table) = splitTable once.1 once.2 ∧
      (splitTable once.1 once.2 = once ↔ SetApart q.schema q.table) ∧
      (Filled once ↔ FilledParts q.schema q.table) := by
  refine ⟨?_, splitTable_splitTable_iff q.schema q.table, filled_splitTable_iff q.schema q.table⟩
  rw [ofAttributes_eq]

/-- **A table with two dots is not read as it was written, and a dot at the front leaves a blank schema**, which is
gone the second time. -/
theorem dots_set_apart_twice :
    splitTable none (some "a.b.c") = (some "a", some "b.c") ∧
      (DataSource.ofAttributes (attrs { table := some "a.b.c" } true)).schema = some "a" ∧
      (DataSource.ofAttributes (attrs { table := some "a.b.c" } true)).table = some "c" ∧
      splitTable none (some ".t") = (some "", some "t") ∧ ¬Filled (some "", some "t") ∧
      splitTable (some "") (some "t") = (none, some "t") := by
  refine ⟨by decide, by decide, by decide, by decide, ?_, by decide⟩
  rintro ⟨hschema, -⟩
  exact hschema "" rfl (by decide)

end NewQuery

end DashboardMarkup.Edit
