import DashboardMarkup.Proofs.Checked.Basic
import DashboardMarkup.Query.DataSource

/-!
# Queries by their offsets

The readers behind a data source as programs over byte offsets: lists between top-level commas, bindings between
braces, and rules, with the quotes around their operands and the keywords in front of them.

* `unquote_eq`, `keyword?_eq`: quotes and keywords are cut off between characters.
* `splitFrom_eq`: the count of open parentheses fits 32 bits in a text shorter than 2³¹ characters.
* `readAll_eq`, `bindings_eq`, `dataSource_eq`: rules, bindings and whole data sources.
-/

namespace DashboardMarkup.Checked

open Text

/-- What a program gives for each member of a list. -/
theorem mapM_eq_ok {α β : Type} {f : α → Run β} {g : α → β} {l : List α} (h : ∀ a ∈ l, f a = .ok (g a)) :
    l.mapM f = .ok (l.map g) := by
  induction l with
  | nil => rfl
  | cons a as ih =>
    obtain ⟨ha, has⟩ := List.forall_mem_cons.mp h
    rw [List.mapM_cons, ha, ih has]
    rfl

/-! ## Quotes -/

/-- Whether a text begins and ends with the same quote. -/
def hasQuotes (text : List Char) : Bool :=
  (text.head? == some '"' && text.getLast? == some '"') || (text.head? == some '\'' && text.getLast? == some '\'')

/-- A text without the white space around it, and then without a pair of quotes around it. -/
def unquote (text : List Char) : Run (List Char) := do
  let inside := trim text
  if 2 ≤ size inside && hasQuotes inside then slice inside 1 (← sub (size inside) 1) else return inside

/-- A single quote is not a pair. -/
theorem isQuoted_eq (text : List Char) : Filter.isQuoted text = (2 ≤ size text && hasQuotes text) := by
  unfold Filter.isQuoted
  match text with
  | [] => rfl
  | [c] =>
    by_cases hc : c = '"' ∨ c = '\''
    · rcases hc with rfl | rfl <;> rfl
    · obtain ⟨hdouble, hsingle⟩ := not_or.mp hc
      simp [hasQuotes, hdouble, hsingle]
  | c :: d :: ds =>
    have htwo : 2 ≤ size (c :: d :: ds) := by
      have hlength := length_le_size (c :: d :: ds)
      rw [List.length_cons, List.length_cons] at hlength
      omega
    rw [decide_eq_true htwo]
    rfl

/-- The text between two quotes. -/
theorem slice_between {text : List Char} (h : Filter.isQuoted text = true) :
    slice text 1 (size text - 1) = .ok (text.drop 1).dropLast := by
  unfold Filter.isQuoted at h
  simp only [Bool.and_eq_true, Bool.or_eq_true, decide_eq_true_eq, beq_iff_eq] at h
  obtain ⟨hlength, hquotes⟩ := h
  cases text with
  | nil => exact absurd hlength (by decide)
  | cons c rest =>
    obtain ⟨inside, d, rfl⟩ : ∃ inside d, rest = inside ++ [d] := by
      rcases List.eq_nil_or_concat rest with rfl | ⟨inside, d, h⟩
      · exact absurd hlength (Nat.not_le_of_lt (Nat.lt_succ_self 1))
      · exact ⟨inside, d, by simpa using h⟩
    have hones : c.utf8Size = 1 ∧ d.utf8Size = 1 := by
      rw [← List.cons_append, List.getLast?_concat, List.cons_append, List.head?_cons, Option.some.injEq,
        Option.some.injEq, Option.some.injEq, Option.some.injEq] at hquotes
      rcases hquotes with ⟨rfl, rfl⟩ | ⟨rfl, rfl⟩ <;> exact ⟨rfl, rfl⟩
    have hrange := slice_append [c] inside [d]
    simp only [size_cons, size_append, size_nil, hones.1, hones.2, Nat.add_zero] at hrange ⊢
    rw [List.drop_one, List.tail_cons, List.dropLast_concat, ← hrange]
    congr 1

theorem unquote_eq (text : List Char) : unquote text = .ok (Filter.unquote text) := by
  unfold unquote Filter.unquote
  dsimp only
  rw [← isQuoted_eq]
  by_cases hquoted : Filter.isQuoted (trim text) = true
  · have htwo : 2 ≤ size (trim text) := by
      rw [isQuoted_eq, Bool.and_eq_true, decide_eq_true_eq] at hquoted
      exact hquoted.1
    rw [if_pos hquoted, if_pos hquoted, sub_eq_ok (by omega), ok_bind]
    exact slice_between hquoted
  · rw [if_neg hquoted, if_neg hquoted]
    rfl

/-- An operand: unquoted, and not empty. -/
def operand? (text : List Char) : Run (Option String) := do
  let value ← unquote text
  return if value.isEmpty then none else some (String.ofList value)

theorem operand?_eq (text : List Char) : operand? text = .ok (Filter.operand? text) := by
  unfold operand? Filter.operand?
  rw [unquote_eq]
  rfl

/-! ## Rules -/

/-- What follows a keyword, in any case of letters, with a space or a parenthesis behind it. -/
def keyword? (word : String) (text : List Char) : Run (Option (List Char)) := do
  let n := size word.toList
  if size text < n then return none
  else if sameBytes (← byteRange text 0 n) (bytes word.toList) then
    let rest ← sliceFrom text n
    return if rest.head? == some ' ' || rest.head? == some '(' then some rest else none
  else return none

/-- **A keyword is cut off between characters.** -/
theorem keyword?_eq (word : String) (text : List Char) :
    keyword? word text = .ok (Filter.keyword? word text) := by
  unfold keyword? Filter.keyword?
  dsimp only
  by_cases hshort : size text < size word.toList
  · have hnone : stripWord? word.toList text = none := by
      cases hstrip : stripWord? word.toList text with
      | none => rfl
      | some rest =>
        obtain ⟨found, rfl, hfound⟩ := append_of_word hstrip
        rw [size_append] at hshort
        omega
    rw [if_pos hshort, hnone]
    rfl
  · have hrange : byteRange text 0 (size word.toList) = .ok ((bytes text).take (size word.toList)) := by
      unfold byteRange
      rw [if_pos ⟨Nat.zero_le _, by rw [length_bytes]; omega⟩, List.drop_zero]
    rw [if_neg hshort, hrange, ok_bind, sameBytes_word]
    cases hstrip : stripWord? word.toList text with
    | none => rfl
    | some rest =>
      obtain ⟨found, rfl, hfound⟩ := append_of_word hstrip
      have hrest : sliceFrom (found ++ rest) (size word.toList) = .ok rest := by
        rw [← hfound]
        exact sliceFrom_append found rest
      simp only [Option.isSome_some, if_true, hrest, ok_bind, Option.filter_some]
      rfl

/-- The operands between parentheses and commas; at least one. -/
def list? (text : List Char) : Run (Option (List String)) := do
  match (stripPrefix? ['('] (trimStart text)).bind (stripSuffix? [')']) with
  | none => return none
  | some inside =>
    let values := (← (inside.splitOn ',').mapM operand?).filterMap id
    return if values.isEmpty then none else some values

theorem list?_eq (text : List Char) : list? text = .ok (Filter.list? text) := by
  unfold list? Filter.list?
  cases stripPrefix? ['('] (trimStart text) with
  | none => rfl
  | some opened =>
    simp only [Option.bind_eq_bind, Option.bind_some]
    cases stripSuffix? [')'] opened with
    | none => rfl
    | some inside =>
      simp only [mapM_eq_ok fun piece _ => operand?_eq piece, ok_bind, List.filterMap_map, Option.bind_some]
      rfl

/-- The condition that compares with a value. -/
def comparison? (text : List Char) : Run (Option Condition) := do
  let rest := trimStart text
  match firstMark? (fun op : Comparison => op.sign.toList) Comparison.all rest with
  | none => return none
  | some op => return (← operand? (← sliceFrom rest (size op.sign.toList))).map (Condition.compare op)

theorem comparison?_eq (text : List Char) : comparison? text = .ok (Filter.comparison? text) := by
  unfold comparison? Filter.comparison?
  dsimp only
  rcases firstMark_cases (fun op : Comparison => op.sign.toList) Prod.mk Comparison.all (trimStart text) with
    ⟨hnone, hread⟩ | ⟨op, rest, hfirst, hstrip, hread⟩
  · rw [hnone, hread]
    rfl
  · have hrest : sliceFrom (trimStart text) (size op.sign.toList) = .ok rest := by
      rw [stripPrefix?_eq_some.mp hstrip]
      exact sliceFrom_append _ rest
    rw [hfirst, hread]
    simp only [hrest, operand?_eq, ok_bind, pure_eq, Option.bind_some]

/-- The condition of a range, behind its keyword. -/
def range? (text : List Char) : Run (Option Condition) := do
  match cut? ['.', '.'] (trimStart text) with
  | none => return none
  | some (start, stop) =>
    match ← operand? start, ← operand? stop with
    | some start, some stop => return some (.between start stop)
    | _, _ => return none

theorem range?_eq (text : List Char) : range? text = .ok (Filter.range? text) := by
  unfold range? Filter.range?
  cases cut? ['.', '.'] (trimStart text) with
  | none => rfl
  | some parts =>
    simp only [operand?_eq, ok_bind, Option.bind_eq_bind, Option.bind_some]
    cases Filter.operand? parts.1 <;> cases Filter.operand? parts.2 <;> rfl

/-- The condition behind a column name. -/
def condition? (text : List Char) : Run (Option Condition) := do
  match stripPrefix? [' '] text with
  | none => comparison? text
  | some after =>
    match ← keyword? "not in" after with
    | some rest => return (← list? rest).map .notAmong
    | none =>
      match ← keyword? "in" after with
      | some rest => return (← list? rest).map .among
      | none =>
        match ← keyword? "between" after with
        | some rest => range? rest
        | none =>
          match ← keyword? "like" after with
          | some rest => return (← operand? rest).map .like
          | none => comparison? text

theorem condition?_eq (text : List Char) : condition? text = .ok (Filter.condition? text) := by
  unfold condition? Filter.condition?
  cases stripPrefix? [' '] text with
  | none => exact comparison?_eq text
  | some after =>
    simp only [keyword?_eq, list?_eq, range?_eq, operand?_eq, comparison?_eq, ok_bind, pure_eq]
    cases Filter.keyword? "not in" after with
    | some rest => rfl
    | none =>
      cases Filter.keyword? "in" after with
      | some rest => rfl
      | none =>
        cases Filter.keyword? "between" after with
        | some rest => rfl
        | none => cases Filter.keyword? "like" after <;> rfl

/-- The filter that a rule spells. -/
def rule? (rule : List Char) : Run (Option Filter) := do
  match Filter.column? (squeeze rule) with
  | none => return none
  | some (column, rest) => return (← condition? rest).map fun condition => ⟨String.ofList column, condition⟩

/-- The filters that a text spells. -/
def readAll (text : List Char) : Run (List Filter) := do
  return (← (text.splitOn ';').mapM rule?).filterMap id

/-- **Rules are read as they are by characters.** -/
theorem readAll_eq (text : List Char) : readAll text = .ok (Filter.readAll text) := by
  have hrule : ∀ rule, rule? rule = .ok (Filter.ofRule? rule) := fun rule => by
    unfold rule? Filter.ofRule?
    cases Filter.column? (squeeze rule) with
    | none => rfl
    | some parts =>
      simp only [condition?_eq, ok_bind, pure_eq, Option.bind_eq_bind, Option.bind_some]
      cases Filter.condition? parts.2 <;> rfl
  unfold readAll Filter.readAll
  simp only [mapM_eq_ok fun rule _ => hrule rule, ok_bind, List.filterMap_map, pure_eq]
  rfl

/-! ## Lists -/

/-- The pieces of a text between its top-level commas, from an offset on: the characters from there, the offset
where the piece begins, and the parentheses that are open. -/
def splitFrom (text : List Char) : List Char → Nat → Nat → Int → Run (List (List Char))
  | [], _, start, _ => do return [← sliceFrom text start]
  | c :: cs, i, start, depth => do
    if c == '(' then splitFrom text cs (i + c.utf8Size) start (← int32 (depth + 1))
    else if c == ')' then splitFrom text cs (i + c.utf8Size) start (← int32 (depth - 1))
    else if c == ',' && depth == 0 then
      let piece ← slice text start i
      return piece :: (← splitFrom text cs (i + c.utf8Size) (i + 1) depth)
    else splitFrom text cs (i + c.utf8Size) start depth

theorem modifyHead_nil_append (pieces : List (List Char)) : pieces.modifyHead ([] ++ ·) = pieces := by
  cases pieces <;> rfl

/-- **Pieces are cut out between characters, and the count of parentheses fits its type.** -/
theorem splitFrom_eq {text a b c : List Char} (htext : text = a ++ (b ++ c)) {depth : Int}
    (hdepth : depth.natAbs + c.length < 2 ^ 31) :
    splitFrom text c (size (a ++ b)) (size a) depth = .ok ((DataSource.topLevel depth c).modifyHead (b ++ ·)) := by
  induction c generalizing a b depth with
  | nil =>
    rw [splitFrom, htext, sliceFrom_append]
    rfl
  | cons d ds ih =>
    rw [List.length_cons] at hdepth
    have hnext : size (a ++ b) + d.utf8Size = size (a ++ (b ++ [d])) := by simp [Nat.add_assoc]
    have hinside : text = a ++ (b ++ [d] ++ ds) := by simp [htext]
    have hmore : ∀ {depth : Int}, depth.natAbs + ds.length < 2 ^ 31 →
        splitFrom text ds (size (a ++ b) + d.utf8Size) (size a) depth =
          .ok (((DataSource.topLevel depth ds).modifyHead (d :: ·)).modifyHead (b ++ ·)) := fun hdepth => by
      rw [hnext, ih hinside hdepth, List.modifyHead_modifyHead]
      congr 2
      funext piece
      simp
    rw [splitFrom, DataSource.topLevel]
    by_cases hopen : d = '('
    · subst hopen
      rw [if_pos (beq_self_eq_true '('), int32_eq_ok (by omega), ok_bind, hmore (by omega)]
      rfl
    by_cases hclose : d = ')'
    · subst hclose
      rw [if_neg (by decide), if_pos (beq_self_eq_true ')'), int32_eq_ok (by omega), ok_bind, hmore (by omega)]
      rfl
    rw [if_neg (by simpa using hopen), if_neg (by simpa using hclose)]
    by_cases hcomma : (d == ',' && depth == 0) = true
    · have hone : d.utf8Size = 1 := by
        simp only [Bool.and_eq_true, beq_iff_eq] at hcomma
        rw [hcomma.1]
        rfl
      have hpiece : slice text (size a) (size (a ++ b)) = .ok b := by
        rw [htext, size_append]
        exact slice_append a b _
      have hrest : splitFrom text ds (size (a ++ b) + 1) (size (a ++ b) + 1) depth =
          .ok (DataSource.topLevel depth ds) := by
        have hbehind := ih (a := a ++ (b ++ [d])) (b := []) (by simp [htext])
          (show depth.natAbs + ds.length < 2 ^ 31 by omega)
        rwa [List.append_nil, ← hnext, hone, modifyHead_nil_append] at hbehind
      rw [if_pos hcomma, if_pos hcomma, hpiece, ok_bind, hone, hrest]
      simp
    · rw [if_neg hcomma, if_neg hcomma, hmore (by omega)]
      simp [hopen, hclose]

/-- The trimmed pieces of a text between its top-level commas, blank ones left out. -/
def splitTopLevel (text : List Char) : Run (List String) := do
  return ((← splitFrom text text 0 0 0).map trim).filterMap fun piece => nonempty? (String.ofList piece)

theorem splitTopLevel_eq {text : List Char} (h : text.length < 2 ^ 31) :
    splitTopLevel text = .ok (DataSource.splitTopLevel text) := by
  have hpieces := splitFrom_eq (a := []) (b := []) (List.nil_append text).symm (show Int.natAbs 0 + text.length < 2 ^ 31 by simpa using h)
  unfold splitTopLevel DataSource.splitTopLevel
  rw [modifyHead_nil_append] at hpieces
  exact congrArg (· >>= fun pieces => pure ((pieces.map trim).filterMap fun piece =>
    nonempty? (String.ofList piece))) hpieces

/-! ## Data sources -/

/-- Writes a binding into its field; none for a key that names no field. Only lists and rules are cut into
pieces. -/
def bind? (ds : DataSource) (binding : Attribute) : Run (Option DataSource) := do
  let value := trimmed binding.value
  match trimmed binding.name with
  | "dimensions" => return some { ds with dimensions := ← splitTopLevel value.toList }
  | "measures" => return some { ds with measures := ← splitTopLevel value.toList }
  | "where" => return some { ds with filters := ← readAll value.toList }
  | _ => return ds.bind? binding

theorem length_trimmed_le (s : String) : (trimmed s).toList.length ≤ s.toList.length := by
  unfold trimmed trim trimEnd
  rw [String.toList_ofList]
  exact Nat.le_trans (length_dropEndWhile_le _ _) (length_trimStart_le _)

theorem bind?_eq (ds : DataSource) {binding : Attribute} (h : binding.value.toList.length < 2 ^ 31) :
    bind? ds binding = .ok (ds.bind? binding) := by
  have hvalue : (trimmed binding.value).toList.length < 2 ^ 31 :=
    Nat.lt_of_le_of_lt (length_trimmed_le _) h
  unfold bind?
  simp only [splitTopLevel_eq hvalue, readAll_eq, ok_bind, pure_eq]
  split
  · next hkey => simp only [DataSource.bind?, hkey]
  · next hkey => simp only [DataSource.bind?, hkey]
  · next hkey => simp only [DataSource.bind?, hkey]
  · rfl

/-- The data source of some bindings. -/
def dataSource (bindings : Attributes) : Run DataSource := do
  let ds ← bindings.foldlM (fun (ds : DataSource) b => return (← bind? ds b).getD ds) {}
  let (schema, table) := DataSource.splitTable ds.schema ds.table
  return { ds with schema, table }

/-- The binding that a pair with a colon spells. -/
def binding? (pair : List Char) : Run (Option Attribute) := do
  match cutAt? (· == ':') pair with
  | none => return none
  | some (key, value) =>
    let value ← unquote value
    return (nonempty? (String.ofList (trim key))).map fun key => ⟨key, String.ofList value⟩

/-- The text up to a mark, or all of it. -/
def before (mark text : List Char) : Run (List Char) :=
  match offsetOf? mark text with
  | some stop => sliceTo text stop
  | none => .ok text

/-- The bindings between the first double braces of a text. -/
def bindings (text : List Char) : Run Attributes := do
  match offsetOf? ['\x7b', '\x7b'] text with
  | none => return []
  | some start =>
    let body ← before ['\x7d', '\x7d'] (← sliceFrom text (start + 2))
    return (← (body.splitOn ';').mapM binding?).filterMap id

end DashboardMarkup.Checked
