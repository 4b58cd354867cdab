import DashboardMarkup.Record.Widget
import Mathlib.Data.List.TakeWhile

/-!
# The shape of filters

A filter text is cut at its semicolons, and each piece is read on its own. Whatever a piece is, either nothing is read
of it or a filter on a column, with one of ten operators and just the operands that belong to it, none of them empty.

* `readAll_append`: filters on both sides of a semicolon.
* `filled_of_condition?`: the operands that are read are not empty.
* `apart_and_wellShaped`: filter texts are read apart, and the record of each filter is well shaped.
-/

namespace DashboardMarkup

open Text

/-- A list of texts, of which there is one at least, and none is empty. -/
def FilledList (values : List String) : Prop :=
  values ≠ [] ∧ ∀ value ∈ values, value ≠ ""

/-- No operand of a condition is empty. -/
def Condition.Filled : Condition → Prop
  | compare _ value => value ≠ ""
  | like pattern => pattern ≠ ""
  | among values => FilledList values
  | notAmong values => FilledList values
  | between start stop => start ≠ "" ∧ stop ≠ ""

namespace Filter

/-! ## Shapes -/

/-- A column name: a letter of the ASCII alphabet or an underscore, and then characters of column names. -/
def IsColumn (name : String) : Prop :=
  ∃ c cs, name.toList = c :: cs ∧ isColumnStart c = true ∧ ∀ d ∈ cs, isColumnChar d = true

instance (name : String) : Decidable (IsColumn name) :=
  match h : name.toList with
  | [] => isFalse fun ⟨_, _, hname, _⟩ => by simp [h] at hname
  | c :: cs =>
    have : Decidable (∀ d ∈ cs, isColumnChar d = true) := List.decidableBAll _ cs
    decidable_of_iff (isColumnStart c = true ∧ ∀ d ∈ cs, isColumnChar d = true)
      ⟨fun hchars => ⟨c, cs, h, hchars⟩, fun ⟨_, _, hname, hchars⟩ => by
        obtain ⟨rfl, rfl⟩ := List.cons.inj (h.symm.trans hname)
        exact hchars⟩

/-- **The record of a filter**: a column, an operator, and the operands that belong to it and no others. -/
inductive WellShaped : Json → Prop
  | value {column op value : String} (hcolumn : IsColumn column)
      (hop : op ∈ ["=", "!=", ">", ">=", "<", "<=", "like"]) (hvalue : value ≠ "") :
      WellShaped (.object [("col", .string column), ("op", .string op), ("val", .string value)])
  | values {column op : String} {values : List String} (hcolumn : IsColumn column) (hop : op ∈ ["in", "not in"])
      (hvalues : FilledList values) :
      WellShaped (.object [("col", .string column), ("op", .string op), ("vals", .array (values.map .string))])
  | range {column start stop : String} (hcolumn : IsColumn column) (hstart : start ≠ "") (hstop : stop ≠ "") :
      WellShaped (.object [("col", .string column), ("op", .string "between"), ("start", .string start),
        ("end", .string stop)])

/-- A filter on a column without empty operands has a record of that shape. -/
theorem wellShaped_record {f : Filter} (hcolumn : IsColumn f.column) (h : f.condition.Filled) :
    WellShaped f.record := by
  obtain ⟨column, condition⟩ := f
  cases condition with
  | compare op value =>
    have hop : op.sign ∈ ["=", "!=", ">", ">=", "<", "<=", "like"] := by cases op <;> decide
    exact .value hcolumn hop h
  | like pattern => exact .value hcolumn (show "like" ∈ _ by decide) h
  | among values => exact .values hcolumn (show "in" ∈ _ by decide) h
  | notAmong values => exact .values hcolumn (show "not in" ∈ _ by decide) h
  | between start stop => exact .range hcolumn h.1 h.2

/-! ## What is read -/

theorem ne_empty_of_operand? {text : List Char} {value : String} (h : operand? text = some value) : value ≠ "" := by
  unfold operand? at h
  simp only [Option.ite_none_left_eq_some, List.isEmpty_iff, Option.some.injEq] at h
  obtain ⟨hne, rfl⟩ := h
  simpa using hne

theorem filled_of_list? {text : List Char} {values : List String} (h : list? text = some values) :
    FilledList values := by
  unfold list? at h
  simp only [Option.bind_eq_bind, Option.bind_eq_some_iff, Option.ite_none_left_eq_some, List.isEmpty_iff,
    Option.pure_def, Option.some.injEq] at h
  obtain ⟨_, -, inside, -, hne, rfl⟩ := h
  refine ⟨hne, fun value hvalue => ?_⟩
  obtain ⟨piece, -, hpiece⟩ := List.mem_filterMap.mp hvalue
  exact ne_empty_of_operand? hpiece

theorem filled_of_comparison? {text : List Char} {condition : Condition} (h : comparison? text = some condition) :
    condition.Filled := by
  unfold comparison? at h
  obtain ⟨⟨op, rest⟩, -, h⟩ := Option.bind_eq_some_iff.mp h
  obtain ⟨value, hvalue, rfl⟩ := Option.map_eq_some_iff.mp h
  exact ne_empty_of_operand? hvalue

theorem filled_of_range? {text : List Char} {condition : Condition} (h : range? text = some condition) :
    condition.Filled := by
  unfold range? at h
  simp only [Option.bind_eq_bind, Option.bind_eq_some_iff, Option.pure_def, Option.some.injEq, Prod.exists] at h
  obtain ⟨front, behind, -, start, hstart, stop, hstop, rfl⟩ := h
  exact ⟨ne_empty_of_operand? hstart, ne_empty_of_operand? hstop⟩

/-- **The operands that are read are not empty**, whatever form the condition has. -/
theorem filled_of_condition? {text : List Char} {condition : Condition} (h : condition? text = some condition) :
    condition.Filled := by
  unfold condition? at h
  split at h
  · exact filled_of_comparison? h
  · split at h
    · obtain ⟨values, hvalues, rfl⟩ := Option.map_eq_some_iff.mp h
      exact filled_of_list? hvalues
    · obtain ⟨values, hvalues, rfl⟩ := Option.map_eq_some_iff.mp h
      exact filled_of_list? hvalues
    · exact filled_of_range? h
    · obtain ⟨pattern, hpattern, rfl⟩ := Option.map_eq_some_iff.mp h
      exact ne_empty_of_operand? hpattern
    · exact filled_of_comparison? h

theorem isColumn_of_column? {text name rest : List Char} (h : column? text = some (name, rest)) :
    IsColumn (String.ofList name) := by
  cases text with
  | nil => exact absurd h (by simp [column?])
  | cons c cs =>
    simp only [column?, Option.ite_none_right_eq_some, Option.some.injEq, Prod.mk.injEq] at h
    obtain ⟨hstart, rfl, -⟩ := h
    exact ⟨c, _, String.toList_ofList, hstart, fun d hd => List.mem_takeWhile_imp hd⟩

/-- **What is read of a rule is well shaped.** -/
theorem wellShaped_of_ofRule? {rule : List Char} {f : Filter} (h : ofRule? rule = some f) : WellShaped f.record := by
  unfold ofRule? at h
  simp only [Option.bind_eq_bind, Option.bind_eq_some_iff, Option.pure_def, Option.some.injEq, Prod.exists] at h
  obtain ⟨name, rest, hcolumn, condition, hcondition, rfl⟩ := h
  exact wellShaped_record (isColumn_of_column? hcolumn) (filled_of_condition? hcondition)

/-! ## Filter texts -/

/-- **Filters on both sides of a semicolon are read apart.** -/
theorem readAll_append (a b : List Char) : readAll (a ++ ';' :: b) = readAll a ++ readAll b := by
  unfold readAll
  rw [List.splitOn_append_cons_self, List.filterMap_append]

/-- **Filter texts are read apart, and every filter is well shaped**, whatever the texts are. -/
theorem apart_and_wellShaped (a b : List Char) :
    readAll (a ++ ';' :: b) = readAll a ++ readAll b ∧ ∀ f ∈ readAll a, WellShaped f.record := by
  refine ⟨readAll_append a b, fun f hf => ?_⟩
  obtain ⟨rule, -, hrule⟩ := List.mem_filterMap.mp hf
  exact wellShaped_of_ofRule? hrule

/-- A list with a gap in it, behind a rule without a value. -/
theorem apart_and_wellShaped_gap :
    readAll "x != ; kind NOT IN (a,, 'b')".toList = [⟨"kind", .notAmong ["a", "b"]⟩] ∧
      WellShaped (record ⟨"kind", .notAmong ["a", "b"]⟩) := by
  have hread : readAll "x != ; kind NOT IN (a,, 'b')".toList = [⟨"kind", .notAmong ["a", "b"]⟩] := by
    decide
  exact ⟨hread, (apart_and_wellShaped "x != ; kind NOT IN (a,, 'b')".toList []).2 _ (by rw [hread]; simp)⟩

end Filter

end DashboardMarkup
