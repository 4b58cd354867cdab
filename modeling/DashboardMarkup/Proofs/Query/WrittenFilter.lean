import DashboardMarkup.Proofs.Checked.Basic
import DashboardMarkup.Proofs.Markup.Written
import DashboardMarkup.Proofs.Query.FilterShape
import DashboardMarkup.Proofs.Text.SingleSpaced

/-!
# Filters that are written

A filter is written as its column, its operator and its operands, with a space between them and each value in single
quotes. A text of such filters reads back, whatever the values are, as long as they hold no mark that separates them
and no white space but single spaces: quotes and spaces inside the quotes are part of a value, and a column may have
the name of an operator.

* `unquote_singleQuoted`: quotes around a value are taken off once.
* `condition?_spelled`: what stands behind a column is told by its operator, in any case of letters.
* `readAll_spelled`: filters that are written are read.
-/

namespace DashboardMarkup

open Template (Lacks cut?_pair)
open Text

/-! ## How filters are written -/

/-- A value in single quotes. -/
def singleQuoted (value : String) : List Char :=
  '\'' :: (value.toList ++ ['\''])

/-- Values in parentheses, with a comma between them. -/
def writtenList (values : List String) : List Char :=
  '(' :: ([','].intercalate (values.map singleQuoted) ++ [')'])

/-- The operands of a condition as they are written. -/
def Condition.written : Condition → List Char
  | compare _ value => singleQuoted value
  | like pattern => singleQuoted pattern
  | among values => writtenList values
  | notAmong values => writtenList values
  | between start stop => singleQuoted start ++ '.' :: '.' :: singleQuoted stop

/-- A value that can be written: it is not empty, and has no semicolon and no white space but single spaces. -/
structure Quotable (value : String) : Prop where
  ne_empty : value ≠ ""
  no_semicolon : ';' ∉ value.toList
  spaced : SingleSpaced value.toList

instance (value : String) : Decidable (Quotable value) :=
  decidable_of_iff (value ≠ "" ∧ ';' ∉ value.toList ∧ SingleSpaced value.toList)
    ⟨fun h => ⟨h.1, h.2.1, h.2.2⟩, fun h => ⟨h.ne_empty, h.no_semicolon, h.spaced⟩⟩

/-- A list that can be written: it has one value at least, and no comma in any of them. -/
def WritableList (values : List String) : Prop :=
  values ≠ [] ∧ ∀ value ∈ values, Quotable value ∧ ',' ∉ value.toList

instance (values : List String) : Decidable (WritableList values) :=
  inferInstanceAs (Decidable (_ ∧ _))

/-- A condition whose operands can be written: there are no two dots in the lower bound of a range. -/
def Condition.Writable : Condition → Prop
  | compare _ value => Quotable value
  | like pattern => Quotable pattern
  | among values => WritableList values
  | notAmong values => WritableList values
  | between start stop => Quotable start ∧ Quotable stop ∧ Lacks '.' '.' start.toList

instance : DecidablePred Condition.Writable
  | .compare _ value => inferInstanceAs (Decidable (Quotable value))
  | .like pattern => inferInstanceAs (Decidable (Quotable pattern))
  | .among values => inferInstanceAs (Decidable (WritableList values))
  | .notAmong values => inferInstanceAs (Decidable (WritableList values))
  | .between start stop =>
    inferInstanceAs (Decidable (Quotable start ∧ Quotable stop ∧ Lacks '.' '.' start.toList))

namespace Filter

/-- A filter that can be written. -/
structure Writable (f : Filter) : Prop where
  column : IsColumn f.column
  condition : f.condition.Writable

instance (f : Filter) : Decidable f.Writable :=
  decidable_of_iff (IsColumn f.column ∧ f.condition.Writable) ⟨fun h => ⟨h.1, h.2⟩, fun h => ⟨h.column, h.condition⟩⟩

/-- **A text spells a filter**: its column, its operator in any case of letters, and its operands, with one space
between them. There may be white space around it. -/
def Spelled (f : Filter) (text : List Char) : Prop :=
  ∃ word, lower word = f.condition.word.toList ∧
    trim text = f.column.toList ++ ' ' :: (word ++ ' ' :: f.condition.written)

/-! ## Operands -/

/-- Quotes around a value are taken off once. -/
theorem unquote_singleQuoted (value : String) : unquote (singleQuoted value) = value.toList := by
  have htrim : trim (singleQuoted value) = singleQuoted value := trim_eq_self (by decide) (by decide) _
  have hlast : (singleQuoted value).getLast? = some '\'' := by
    unfold singleQuoted
    rw [← List.cons_append, List.getLast?_concat]
  have hquoted : isQuoted (singleQuoted value) = true := by
    unfold isQuoted
    rw [hlast]
    simp [singleQuoted]
  unfold unquote
  rw [htrim, if_pos hquoted]
  simp [singleQuoted]

theorem operand?_singleQuoted {value : String} (h : value ≠ "") : operand? (singleQuoted value) = some value := by
  unfold operand?
  rw [unquote_singleQuoted, if_neg (by simpa using h), String.ofList_toList]

/-- White space in front of an operand does not count. -/
theorem operand?_space (text : List Char) : operand? (' ' :: text) = operand? text := by
  unfold operand? unquote
  rw [trim_space]

/-- A list of values is cut at the commas between them. -/
theorem list?_written {values : List String} (h : WritableList values) :
    list? (' ' :: writtenList values) = some values := by
  obtain ⟨hne, hvalues⟩ := h
  have hsplit : ([','].intercalate (values.map singleQuoted)).splitOn ',' = values.map singleQuoted := by
    refine List.splitOn_intercalate ',' (fun piece hpiece => ?_) (by simpa using hne)
    obtain ⟨value, hvalue, rfl⟩ := List.mem_map.mp hpiece
    simpa [singleQuoted] using (hvalues value hvalue).2
  have hread : (values.map singleQuoted).filterMap operand? = values := by
    rw [List.filterMap_map]
    refine (List.filterMap_congr fun value hvalue => ?_).trans List.filterMap_some
    exact operand?_singleQuoted (hvalues value hvalue).1.ne_empty
  have hopen : stripPrefix? ['('] (trimStart (' ' :: writtenList values)) =
      some ([','].intercalate (values.map singleQuoted) ++ [')']) := rfl
  have hclose : stripSuffix? [')'] ([','].intercalate (values.map singleQuoted) ++ [')']) =
      some ([','].intercalate (values.map singleQuoted)) := stripSuffix?_eq_some.mpr rfl
  unfold list?
  simp only [hopen, hclose, hsplit, hread, Option.bind_eq_bind, Option.bind_some]
  rw [if_neg (by simpa using hne)]
  rfl

/-- A range is cut between its bounds, since there are no two dots in the lower one. -/
theorem range?_written {start stop : String} (hstart : Quotable start) (hstop : Quotable stop)
    (hdots : Lacks '.' '.' start.toList) :
    range? (' ' :: (singleQuoted start ++ '.' :: '.' :: singleQuoted stop)) = some (.between start stop) := by
  have hlacks : Lacks '.' '.' (singleQuoted start ++ ['.']) := by
    have hquote : Lacks '.' '.' (start.toList ++ ['\'', '.']) :=
      Lacks.append_of_second hdots (by decide) (by decide)
    have hfirst := Lacks.append_of_first (s := ['\'']) (by decide) hquote
    simpa [singleQuoted] using hfirst
  have hcut : cut? ['.', '.'] (trimStart (' ' :: (singleQuoted start ++ '.' :: '.' :: singleQuoted stop))) =
      some (singleQuoted start, singleQuoted stop) := cut?_pair hlacks (singleQuoted stop)
  unfold range?
  rw [hcut]
  simp only [Option.bind_eq_bind, Option.bind_some, operand?_singleQuoted hstart.ne_empty,
    operand?_singleQuoted hstop.ne_empty, Option.pure_def]

/-- The operator of a comparison ends at the space behind it. -/
theorem comparison?_written (op : Comparison) {value : String} (h : value ≠ "") :
    comparison? (' ' :: (op.sign.toList ++ ' ' :: singleQuoted value)) = some (.compare op value) := by
  have hop : Comparison.all.findSome? (fun other =>
      (stripPrefix? other.sign.toList (op.sign.toList ++ ' ' :: singleQuoted value)).map fun rest => (other, rest)) =
        some (op, ' ' :: singleQuoted value) := by
    cases op <;> rfl
  have htrim : trimStart (' ' :: (op.sign.toList ++ ' ' :: singleQuoted value)) =
      op.sign.toList ++ ' ' :: singleQuoted value := by
    cases op <;> rfl
  unfold comparison?
  dsimp only
  rw [htrim, hop, Option.bind_some, operand?_space, operand?_singleQuoted h]
  rfl

/-! ## Operators -/

/-- Operators are named in small letters. -/
theorem lower_word (condition : Condition) : lower condition.word.toList = condition.word.toList := by
  cases condition with
  | compare op value =>
    show lower op.sign.toList = op.sign.toList
    cases op <;> decide
  | like pattern => exact (by decide : lower "like".toList = "like".toList)
  | among values => exact (by decide : lower "in".toList = "in".toList)
  | notAmong values => exact (by decide : lower "not in".toList = "not in".toList)
  | between start stop => exact (by decide : lower "between".toList = "between".toList)

/-- The sign of a comparison has no letters, and so no other case. -/
theorem eq_sign_of_lower {op : Comparison} {word : List Char} (h : lower word = op.sign.toList) :
    word = op.sign.toList := by
  have hsign : ∀ c ∈ op.sign.toList, c.toNat < 97 := by
    cases op <;> decide
  have hself : lower word = word := by
    refine (List.map_congr_left fun c hc => ?_).trans (List.map_id word)
    rcases Markup.toLower_eq_self_or c with hlower | hletter
    · exact hlower
    · have hmem : c.toLower ∈ op.sign.toList := h ▸ List.mem_map_of_mem hc
      have := hsign _ hmem
      omega
  rw [← h, hself]

/-- A word is found in any case of letters, with a space behind it. -/
theorem keyword?_written {keyword : String} {word : List Char} (h : lower word = lower keyword.toList)
    (rest : List Char) : keyword? keyword (word ++ ' ' :: rest) = some (' ' :: rest) := by
  have hfound : stripWord? keyword.toList (word ++ ' ' :: rest) = some (' ' :: rest) := by
    have hsome : (stripWord? keyword.toList (word ++ ' ' :: rest)).isSome = true := by
      rw [Checked.isSome_stripWord?, ← h]
      exact ⟨lower (' ' :: rest), List.map_append.symm⟩
    obtain ⟨behind, hbehind⟩ := Option.isSome_iff_exists.mp hsome
    obtain ⟨found, htext, hlower⟩ := append_of_stripWord? hbehind
    -- both are as long as the keyword
    have hlength : word.length = found.length := by
      have hlengths := congrArg List.length (h.trans hlower.symm)
      simpa [lower] using hlengths
    obtain ⟨-, rfl⟩ := List.append_inj htext hlength
    exact hbehind
  unfold keyword?
  rw [hfound]
  rfl

/-- A word is not found where the text does not begin with it. -/
theorem keyword?_eq_none {keyword : String} {text : List Char} (h : ¬lower keyword.toList <+: lower text) :
    keyword? keyword text = none := by
  have hnone : stripWord? keyword.toList text = none := by
    rw [← Option.not_isSome_iff_eq_none, Checked.isSome_stripWord?]
    exact h
  unfold keyword?
  rw [hnone]
  rfl

/-- **What stands behind a column is told by its operator**, in any case of letters. -/
theorem condition?_spelled {condition : Condition} (h : condition.Writable) {word : List Char}
    (hword : lower word = condition.word.toList) :
    condition? (' ' :: (word ++ ' ' :: condition.written)) = some condition := by
  have hafter : stripPrefix? [' '] (' ' :: (word ++ ' ' :: condition.written)) =
      some (word ++ ' ' :: condition.written) := rfl
  have hlower : lower (word ++ ' ' :: condition.written) = condition.word.toList ++ ' ' :: lower condition.written := by
    rw [← hword]
    exact List.map_append
  have hown : keyword? condition.word (word ++ ' ' :: condition.written) = some (' ' :: condition.written) :=
    keyword?_written (hword.trans (lower_word condition).symm) _
  -- the operator begins with another letter than the keywords that are tried before it
  have hother : ∀ keyword : String, ¬lower keyword.toList <+: condition.word.toList ++ ' ' :: lower condition.written →
      keyword? keyword (word ++ ' ' :: condition.written) = none := fun keyword hprefix =>
    keyword?_eq_none (by rwa [hlower])
  unfold condition?
  rw [hafter]
  dsimp only
  cases condition with
  | compare op value =>
    have hsign := eq_sign_of_lower hword
    have hnone : ∀ keyword ∈ ["not in", "in", "between", "like"],
        ¬lower keyword.toList <+: op.sign.toList ++ ' ' :: lower (singleQuoted value) := by
      intro keyword hkeyword
      simp only [List.mem_cons, List.not_mem_nil, or_false] at hkeyword
      rcases hkeyword with rfl | rfl | rfl | rfl <;> cases op <;> simp [lower, Comparison.sign]
    rw [hother "not in" (hnone _ (by simp)), hother "in" (hnone _ (by simp)), hother "between" (hnone _ (by simp)),
      hother "like" (hnone _ (by simp)), hsign]
    exact comparison?_written op h.ne_empty
  | like pattern =>
    rw [hother "not in" (by simp [Condition.word, lower]), hother "in" (by simp [Condition.word, lower]),
      hother "between" (by simp [Condition.word, lower]), show keyword? "like" _ = some _ from hown]
    exact congrArg (Option.map Condition.like) ((operand?_space _).trans (operand?_singleQuoted h.ne_empty))
  | among values =>
    rw [hother "not in" (by simp [Condition.word, lower]), show keyword? "in" _ = some _ from hown]
    exact congrArg (Option.map Condition.among) (list?_written h)
  | notAmong values =>
    rw [show keyword? "not in" _ = some _ from hown]
    exact congrArg (Option.map Condition.notAmong) (list?_written h)
  | between start stop =>
    rw [hother "not in" (by simp [Condition.word, lower]), hother "in" (by simp [Condition.word, lower]),
      show keyword? "between" _ = some _ from hown]
    exact range?_written h.1 h.2.1 h.2.2

/-! ## Texts without white space that is lost -/

theorem tight_singleQuoted {value : String} (h : Quotable value) : Tight (singleQuoted value) := by
  have hquote : Tight ['\''] := .of_no_blank (by simp) (by decide)
  exact hquote.around h.spaced hquote

theorem tight_joined {values : List String} (hne : values ≠ []) (h : ∀ value ∈ values, Quotable value) :
    Tight ([','].intercalate (values.map singleQuoted)) := by
  induction values with
  | nil => exact absurd rfl hne
  | cons value values ih =>
    have hvalue := tight_singleQuoted (h value List.mem_cons_self)
    cases values with
    | nil => simpa using hvalue
    | cons next values =>
      have hrest := ih (List.cons_ne_nil _ _) fun v hv => h v (List.mem_cons_of_mem value hv)
      have hcomma : Tight [','] := .of_no_blank (by simp) (by decide)
      rw [List.map_cons, List.intercalate_cons_of_ne_nil (by simp)]
      exact (hvalue.append hcomma).append hrest

theorem tight_list {values : List String} (h : WritableList values) : Tight (writtenList values) := by
  have hopen : Tight ['('] := .of_no_blank (by simp) (by decide)
  have hclose : Tight [')'] := .of_no_blank (by simp) (by decide)
  have hjoined := tight_joined h.1 fun value hvalue => (h.2 value hvalue).1
  exact hopen.append (hjoined.append hclose)

theorem tight_written {condition : Condition} (h : condition.Writable) : Tight condition.written := by
  cases condition with
  | compare op value => exact tight_singleQuoted h
  | like pattern => exact tight_singleQuoted h
  | among values => exact tight_list h
  | notAmong values => exact tight_list h
  | between start stop =>
    have hdots : Tight ['.', '.'] := .of_no_blank (by simp) (by decide)
    exact (tight_singleQuoted h.1).append (hdots.append (tight_singleQuoted h.2.1))

theorem tight_word (condition : Condition) : Tight condition.word.toList := by
  cases condition with
  | compare op value =>
    show Tight op.sign.toList
    cases op <;> exact .of_no_blank (by decide) (by decide)
  | like pattern => exact @Tight.of_no_blank "like".toList (by decide) (by decide)
  | among values => exact @Tight.of_no_blank "in".toList (by decide) (by decide)
  | notAmong values =>
    have hnot : Tight "not".toList := .of_no_blank (by decide) (by decide)
    have hin : Tight "in".toList := .of_no_blank (by decide) (by decide)
    have hword : "not in".toList = "not".toList ++ ' ' :: "in".toList := by decide
    show Tight "not in".toList
    rw [hword]
    exact hnot.append_space hin
  | between start stop => exact @Tight.of_no_blank "between".toList (by decide) (by decide)

theorem isBlank_of_isColumnChar {c : Char} (h : isColumnChar c = true) : isBlank c = false := by
  simp only [isColumnChar, Bool.or_eq_true, beq_iff_eq, or_assoc] at h
  rcases h with h | rfl | rfl | rfl
  · exact isBlank_of_isAlphanumeric h
  all_goals decide

/-- A column name begins with a character that it may go on with. -/
theorem isColumnChar_of_isColumnStart {c : Char} (h : isColumnStart c = true) : isColumnChar c = true := by
  simp only [isColumnStart, Bool.or_eq_true] at h
  rcases h with h | h
  · simp [isColumnChar, isAlphanumeric_of_isAlphanum (c := c) (by simp [Char.isAlphanum, h])]
  · simp [isColumnChar, h]

theorem IsColumn.chars {name : String} (h : IsColumn name) : ∀ c ∈ name.toList, isColumnChar c = true := by
  obtain ⟨c, cs, hname, hstart, hchars⟩ := h
  rw [hname]
  exact List.forall_mem_cons.mpr ⟨isColumnChar_of_isColumnStart hstart, hchars⟩

theorem IsColumn.tight {name : String} (h : IsColumn name) : Tight name.toList := by
  refine .of_no_blank ?_ fun c hc => isBlank_of_isColumnChar (h.chars c hc)
  obtain ⟨c, cs, hname, -⟩ := h
  simp [hname]

/-! ## Rules -/

/-- A column name is read up to the space behind it. -/
theorem column?_written {name : String} (h : IsColumn name) (rest : List Char) :
    column? (name.toList ++ ' ' :: rest) = some (name.toList, ' ' :: rest) := by
  obtain ⟨c, cs, hname, hstart, hchars⟩ := h
  have hspace : isColumnChar ' ' = false := by decide
  rw [hname, List.cons_append, column?, if_pos hstart, List.takeWhile_append_of_pos hchars,
    List.dropWhile_append_of_pos hchars, List.takeWhile_cons_of_neg (by simp [hspace]),
    List.dropWhile_cons_of_neg (by simp [hspace]), List.append_nil]

variable {f : Filter} {part : List Char}

/-- **A rule that spells a filter is read.** -/
theorem ofRule?_spelled (h : f.Writable) (hspelled : f.Spelled part) : ofRule? part = some f := by
  obtain ⟨word, hword, hpart⟩ := hspelled
  have htight : Tight (f.column.toList ++ ' ' :: (word ++ ' ' :: f.condition.written)) := by
    have hwordTight : Tight word := .of_lower (hword ▸ tight_word f.condition)
    exact h.column.tight.append_space (hwordTight.append_space (tight_written h.condition))
  have hsqueeze : squeeze part = f.column.toList ++ ' ' :: (word ++ ' ' :: f.condition.written) := by
    rw [← htight.squeeze_eq, ← hpart]
    unfold squeeze
    rw [words_trim]
  unfold ofRule?
  rw [hsqueeze, column?_written h.column]
  simp only [Option.bind_eq_bind, Option.bind_some, condition?_spelled h.condition hword, String.ofList_toList,
    Option.pure_def]

theorem semicolon_not_mem_singleQuoted {value : String} (h : Quotable value) :
    ';' ∉ singleQuoted value := by
  simpa [singleQuoted] using h.no_semicolon

theorem semicolon_not_mem_list {values : List String} (h : WritableList values) : ';' ∉ writtenList values := by
  have hjoined : ';' ∉ [','].intercalate (values.map singleQuoted) := by
    refine not_mem_intercalate (by decide) fun piece hpiece => ?_
    obtain ⟨value, hvalue, rfl⟩ := List.mem_map.mp hpiece
    exact semicolon_not_mem_singleQuoted (h.2 value hvalue).1
  simpa [writtenList] using hjoined

theorem semicolon_not_mem_written {condition : Condition} (h : condition.Writable) : ';' ∉ condition.written := by
  cases condition with
  | compare op value => exact semicolon_not_mem_singleQuoted h
  | like pattern => exact semicolon_not_mem_singleQuoted h
  | among values => exact semicolon_not_mem_list h
  | notAmong values => exact semicolon_not_mem_list h
  | between start stop =>
    simpa [Condition.written] using
      And.intro (semicolon_not_mem_singleQuoted h.1) (semicolon_not_mem_singleQuoted h.2.1)

/-- Neither an operator in any case of letters nor a column has a semicolon in it. -/
theorem semicolon_not_mem_word {condition : Condition} {word : List Char} (h : lower word = condition.word.toList) :
    ';' ∉ word := by
  intro hmem
  have hlower : ';' ∈ condition.word.toList := h ▸ List.mem_map_of_mem (f := Char.toLower) hmem
  revert hlower
  cases condition with
  | compare op value =>
    show ';' ∉ op.sign.toList
    cases op <;> decide
  | like pattern => exact (by decide : ';' ∉ "like".toList)
  | among values => exact (by decide : ';' ∉ "in".toList)
  | notAmong values => exact (by decide : ';' ∉ "not in".toList)
  | between start stop => exact (by decide : ';' ∉ "between".toList)

/-- A rule has no semicolon in it. -/
theorem semicolon_not_mem_spelled (h : f.Writable) (hspelled : f.Spelled part) : ';' ∉ part := by
  obtain ⟨word, hword, hpart⟩ := hspelled
  have hcolumn : ';' ∉ f.column.toList := fun hmem => absurd (h.column.chars ';' hmem) (by decide)
  intro hmem
  have htrim : ';' ∈ trim part := mem_trim hmem (by decide)
  rw [hpart] at htrim
  simp [hcolumn, semicolon_not_mem_word hword, semicolon_not_mem_written h.condition] at htrim

/-! ## Filter texts -/

theorem filterMap_ofRule?_spelled {filters : List Filter} {parts : List (List Char)} (h : ∀ f ∈ filters, f.Writable)
    (hspelled : List.Forall₂ Spelled filters parts) : parts.filterMap ofRule? = filters := by
  induction hspelled with
  | nil => rfl
  | cons hpart _ ih =>
    obtain ⟨hfirst, hrest⟩ := List.forall_mem_cons.mp h
    rw [List.filterMap_cons_some (ofRule?_spelled hfirst hpart), ih hrest]

theorem semicolon_not_mem_parts {filters : List Filter} {parts : List (List Char)} (h : ∀ f ∈ filters, f.Writable)
    (hspelled : List.Forall₂ Spelled filters parts) : ∀ part ∈ parts, ';' ∉ part := by
  induction hspelled with
  | nil => exact fun part hpart => by cases hpart
  | cons hpart _ ih =>
    obtain ⟨hfirst, hrest⟩ := List.forall_mem_cons.mp h
    exact List.forall_mem_cons.mpr ⟨semicolon_not_mem_spelled hfirst hpart, ih hrest⟩

/-- **Filters that are written are read**, each one between semicolons, in order and with every value as it is; and
the operators that are read are in small letters. -/
theorem readAll_spelled {filters : List Filter} {parts : List (List Char)} (h : ∀ f ∈ filters, f.Writable)
    (hspelled : List.Forall₂ Spelled filters parts) :
    readAll ([';'].intercalate parts) = filters ∧
      ∀ f ∈ filters, lower f.condition.word.toList = f.condition.word.toList := by
  refine ⟨?_, fun f _ => lower_word f.condition⟩
  rcases eq_or_ne parts [] with rfl | hne
  · cases hspelled
    rfl
  · unfold readAll
    rw [List.splitOn_intercalate ';' (semicolon_not_mem_parts h hspelled) hne, filterMap_ofRule?_spelled h hspelled]

/-- Columns named like operators, and values with quotes, spaces around them, dots and signs. -/
def oddFilters : List Filter :=
  [⟨"in", .among ["it's", " "]⟩, ⟨"not", .compare .ge "='a' ='"⟩, ⟨"x.y", .between "1." "a..b"⟩]

theorem readAll_spelled_odd :
    (∀ f ∈ oddFilters, f.Writable) ∧
      List.Forall₂ Spelled oddFilters
        ["in IN ('it's',' ')".toList, " not >= '='a' =''".toList, "x.y Between '1.'..'a..b'".toList] ∧
      readAll "in IN ('it's',' '); not >= '='a' ='';x.y Between '1.'..'a..b'".toList = oddFilters := by
  have hquotable : ∀ f ∈ oddFilters, f.Writable := by
    decide
  have hspelled : List.Forall₂ Spelled oddFilters
      ["in IN ('it's',' ')".toList, " not >= '='a' =''".toList, "x.y Between '1.'..'a..b'".toList] :=
    .cons ⟨"IN".toList, by decide, by decide⟩
      (.cons ⟨">=".toList, by decide, by decide⟩
        (.cons ⟨"Between".toList, by decide, by decide⟩ .nil))
  exact ⟨hquotable, hspelled, (readAll_spelled hquotable hspelled).1⟩

end Filter

end DashboardMarkup
