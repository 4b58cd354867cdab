import DashboardMarkup.Proofs.Markup.Written
import DashboardMarkup.Proofs.Template.Untagged
import Mathlib.Data.List.TakeWhile

/-!
# Expressions as they are spelled

A name, a literal, an assignment and an output as they are written: with blanks wherever they may stand, and
a hyphen at either end of the tag or none. What is written is read as it is meant, and nothing else is read
as an output.

* `literal?_source`, `exists_literal`: literals are read up to a blank, and only literals are.
* `ofBody?_assignment`: an assignment is read as it is meant.
* `ofBody?_output`, `isVariable_iff`: so is an output, and what is read as an output is one.
-/

namespace DashboardMarkup.Template

open Text

/-! ## Parts of an expression -/

/-- Plain blanks, or nothing. -/
structure Gap where
  chars : List Char
  plain : ∀ c ∈ chars, isPlainBlank c = true

/-- At least one plain blank. -/
structure Space extends Gap where
  ne_nil : chars ≠ []

/-- The name of a variable. -/
structure Name where
  chars : List Char
  ne_nil : chars ≠ []
  char : ∀ c ∈ chars, isVariableChar c = true

/-- The two characters that may stand around a literal. -/
def IsQuote (c : Char) : Prop :=
  c = '"' ∨ c = '\''

/-- A literal: between two quotes, without that quote in it; or bare, without white space and without the
characters that end an expression. A quote that a bare literal begins with is not closed in it. -/
inductive Literal
  | quoted (quote : Char) (isQuote : IsQuote quote) (text : List Char) (h : quote ∉ text)
  | bare (text : List Char) (ne_nil : text ≠ []) (char : ∀ c ∈ text, isLiteralChar c = true)
      (h : ∀ quote rest, IsQuote quote → text = quote :: rest → quote ∉ rest)

namespace Literal

/-- What a literal stands for. -/
def value : Literal → List Char
  | quoted _ _ text _ => text
  | bare text _ _ _ => text

/-- A literal as it is written. -/
def source : Literal → List Char
  | quoted quote _ text _ => quote :: (text ++ [quote])
  | bare text _ _ _ => text

end Literal

theorem Space.exists_cons (space : Space) :
    ∃ c rest, space.chars = c :: rest ∧ isPlainBlank c = true := by
  cases h : space.chars with
  | nil => exact absurd h space.ne_nil
  | cons c rest => exact ⟨c, rest, rfl, space.plain c (h ▸ List.mem_cons_self)⟩

theorem Space.exists_concat (space : Space) :
    ∃ rest c, space.chars = rest ++ [c] ∧ isPlainBlank c = true := by
  obtain ⟨rest, c, h⟩ := (List.eq_nil_or_concat' space.chars).resolve_left space.ne_nil
  exact ⟨rest, c, h, space.plain c (by rw [h]; simp)⟩

/-! ## Characters -/

theorem isPlainBlank_cases {c : Char} (h : isPlainBlank c = true) :
    c = ' ' ∨ c = '\t' ∨ c = '\n' ∨ c = '\r' := by
  simpa only [isPlainBlank, Bool.or_eq_true, beq_iff_eq, or_assoc] using h

theorem isVariableChar_of_isPlainBlank {c : Char} (h : isPlainBlank c = true) : isVariableChar c = false := by
  rcases isPlainBlank_cases h with rfl | rfl | rfl | rfl <;> decide

theorem isLiteralChar_of_isPlainBlank {c : Char} (h : isPlainBlank c = true) : isLiteralChar c = false := by
  rcases isPlainBlank_cases h with rfl | rfl | rfl | rfl <;> decide

theorem isPlainBlank_of_isVariableChar {c : Char} (h : isVariableChar c = true) : isPlainBlank c = false := by
  rw [← Bool.not_eq_true]
  intro hblank
  rw [isVariableChar_of_isPlainBlank hblank] at h
  exact absurd h (by decide)

theorem isPlainBlank_of_isLiteralChar {c : Char} (h : isLiteralChar c = true) : isPlainBlank c = false := by
  rw [← Bool.not_eq_true]
  intro hblank
  rw [isLiteralChar_of_isPlainBlank hblank] at h
  exact absurd h (by decide)

theorem IsQuote.isPlainBlank {c : Char} (h : IsQuote c) : isPlainBlank c = false := by
  rcases h with rfl | rfl <;> decide

/-- A literal does not begin with a blank. -/
theorem Literal.exists_cons (literal : Literal) :
    ∃ c rest, literal.source = c :: rest ∧ isPlainBlank c = false := by
  cases literal with
  | quoted quote hquote text h => exact ⟨quote, text ++ [quote], rfl, hquote.isPlainBlank⟩
  | bare text hne hchar h =>
    cases text with
    | nil => exact absurd rfl hne
    | cons c rest => exact ⟨c, rest, rfl, isPlainBlank_of_isLiteralChar (hchar c List.mem_cons_self)⟩

/-- What begins with blanks, or behind them with a character outside a class, begins outside the class. -/
theorem head?_gap {p : Char → Bool} (hp : ∀ c, isPlainBlank c = true → p c = false) (gap : Gap)
    (rest : List Char) (hrest : ∀ c ∈ rest.head?, p c = false) :
    ∀ c ∈ (gap.chars ++ rest).head?, p c = false := by
  intro c hc
  cases hgap : gap.chars with
  | nil =>
    rw [hgap] at hc
    exact hrest c hc
  | cons d chars =>
    rw [hgap] at hc
    obtain rfl := Option.some.inj hc
    exact hp d (gap.plain d (hgap ▸ List.mem_cons_self))

/-! ## Reading a part -/

section

variable {rest : List Char}

theorem skipPlain_gap (gap : Gap) {c : Char} (hc : isPlainBlank c = false) :
    skipPlain (gap.chars ++ c :: rest) = c :: rest := by
  unfold skipPlain
  rw [List.dropWhile_append_of_pos gap.plain, List.dropWhile_cons_of_neg (by simp [hc])]

theorem skipPlain_blanks (gap : Gap) : skipPlain gap.chars = [] :=
  List.dropWhile_eq_nil_iff.2 gap.plain

theorem exists_gap (text : List Char) : ∃ gap : Gap, text = gap.chars ++ skipPlain text :=
  ⟨⟨text.takeWhile isPlainBlank, fun _ hc => List.mem_takeWhile_imp hc⟩, List.takeWhile_append_dropWhile.symm⟩

theorem run?_append {p : Char → Bool} {run : List Char} (hne : run ≠ []) (hrun : ∀ c ∈ run, p c = true)
    (hrest : ∀ c ∈ rest.head?, p c = false) : run? p (run ++ rest) = some (run, rest) := by
  have htake : rest.takeWhile p = [] := by
    cases rest with
    | nil => rfl
    | cons c rest => exact List.takeWhile_cons_of_neg (by simp [hrest c rfl])
  have hdrop : rest.dropWhile p = rest := by
    cases rest with
    | nil => rfl
    | cons c rest => exact List.dropWhile_cons_of_neg (by simp [hrest c rfl])
  unfold run?
  simp only [List.takeWhile_append_of_pos hrun, List.dropWhile_append_of_pos hrun, htake, hdrop,
    List.append_nil, List.isEmpty_iff, if_neg hne]

theorem append_of_run? {p : Char → Bool} {text run : List Char} (h : run? p text = some (run, rest)) :
    text = run ++ rest ∧ run ≠ [] ∧ ∀ c ∈ run, p c = true := by
  simp only [run?, List.isEmpty_iff, Option.ite_none_left_eq_some, Option.some.injEq, Prod.mk.injEq] at h
  obtain ⟨hne, rfl, rfl⟩ := h
  exact ⟨List.takeWhile_append_dropWhile.symm, hne, fun c hc => List.mem_takeWhile_imp hc⟩

theorem quoted?_append {quote : Char} {text : List Char} (h : quote ∉ text) :
    quoted? quote (quote :: (text ++ quote :: rest)) = some (text, rest) := by
  rw [quoted?, if_pos (beq_self_eq_true quote)]
  exact cutAt?_append (fun c hc => beq_eq_false_iff_ne.mpr fun heq => h (heq ▸ hc))
    (beq_self_eq_true quote)

theorem append_of_quoted? {quote : Char} {text value : List Char} (h : quoted? quote text = some (value, rest)) :
    quote ∉ value ∧ text = quote :: (value ++ quote :: rest) := by
  cases text with
  | nil => exact absurd h (by simp [quoted?])
  | cons c text =>
    simp only [quoted?, Option.ite_none_right_eq_some, beq_iff_eq] at h
    obtain ⟨rfl, hcut⟩ := h
    obtain ⟨d, hd, hvalue, rfl⟩ := append_of_cutAt? hcut
    obtain rfl := beq_iff_eq.mp hd
    exact ⟨fun hmem => by simpa using hvalue _ hmem, rfl⟩

/-- Nothing is quoted where the first quote is not closed. -/
theorem quoted?_eq_none {quote : Char} {text : List Char} (h : ∀ rest, text = quote :: rest → quote ∉ rest) :
    quoted? quote text = none := by
  refine Option.eq_none_iff_forall_ne_some.mpr fun ⟨value, rest⟩ hquoted => ?_
  obtain ⟨-, htext⟩ := append_of_quoted? hquoted
  exact h _ htext (by simp)

/-- **A literal is read up to a blank or the end.** -/
theorem literal?_source (literal : Literal) (gap : Gap) :
    literal? (literal.source ++ gap.chars) = some (literal.value, gap.chars) := by
  unfold literal? Literal.source Literal.value
  cases literal with
  | quoted quote hquote text h =>
    simp only [List.cons_append, List.append_assoc, List.nil_append]
    rcases hquote with rfl | rfl
    · rw [quoted?_append h, Option.some_or]
    · have hdouble : quoted? '"' ('\'' :: (text ++ '\'' :: gap.chars)) = none :=
        quoted?_eq_none fun rest heq => absurd (List.cons.inj heq).1 (by decide)
      rw [hdouble, quoted?_append h, Option.none_or, Option.some_or]
  | bare text hne hchar h =>
    have hnone : ∀ quote, IsQuote quote → quoted? quote (text ++ gap.chars) = none := by
      refine fun quote hquote => quoted?_eq_none fun rest heq hmem => ?_
      obtain ⟨c, chars, rfl⟩ := List.exists_cons_of_ne_nil hne
      obtain ⟨rfl, rfl⟩ := List.cons.inj heq
      rcases List.mem_append.mp hmem with hchars | hgap
      · exact h c chars hquote rfl hchars
      · exact absurd (gap.plain c hgap) (by simp [hquote.isPlainBlank])
    simp only [hnone _ (Or.inl rfl), hnone _ (Or.inr rfl), Option.none_or]
    refine run?_append hne hchar ?_
    simpa using head?_gap (fun c => isLiteralChar_of_isPlainBlank) gap [] (by simp)

/-- **What is read as a literal is one.** -/
theorem exists_literal {text value : List Char} (h : literal? text = some (value, rest)) :
    ∃ literal : Literal, literal.value = value ∧ text = literal.source ++ rest := by
  unfold literal? at h
  rcases Option.or_eq_some_iff.mp h with hquoted | ⟨hdouble, h⟩
  · obtain ⟨hvalue, rfl⟩ := append_of_quoted? hquoted
    exact ⟨.quoted '"' (.inl rfl) value hvalue, rfl, by simp [Literal.source]⟩
  rcases Option.or_eq_some_iff.mp h with hquoted | ⟨hsingle, hrun⟩
  · obtain ⟨hvalue, rfl⟩ := append_of_quoted? hquoted
    exact ⟨.quoted '\'' (.inr rfl) value hvalue, rfl, by simp [Literal.source]⟩
  obtain ⟨rfl, hne, hchar⟩ := append_of_run? hrun
  refine ⟨.bare value hne hchar ?_, rfl, rfl⟩
  -- a quote that were closed would have been read as one
  rintro quote tail hquote rfl hmem
  obtain ⟨before, after, rfl, hbefore⟩ := List.eq_append_cons_of_mem hmem
  have hread : quoted? quote (quote :: (before ++ quote :: (after ++ rest))) = some (before, after ++ rest) :=
    quoted?_append hbefore
  rcases hquote with rfl | rfl
  · simp [hread] at hdouble
  · simp [hread] at hsingle

end

/-! ## Bodies of tags -/

/-- The hyphen at an end of a tag. -/
def hyphen (written : Bool) : List Char :=
  if written then ['-'] else []

/-- What stands just inside the marks of a tag: blanks, with a hyphen before or behind them or not. -/
structure Sides where
  hyphenBefore : Bool
  before : Space
  behind : Space
  hyphenBehind : Bool

/-- The body of a tag around an expression. -/
def Sides.wrap (sides : Sides) (expression : List Char) : List Char :=
  hyphen sides.hyphenBefore ++
    (sides.before.chars ++ (expression ++ sides.behind.chars) ++ hyphen sides.hyphenBehind)

/-- What is left of a body without its hyphens. -/
theorem trimHyphens_wrap (sides : Sides) (expression : List Char) :
    trimHyphens (sides.wrap expression) = sides.before.chars ++ (expression ++ sides.behind.chars) := by
  obtain ⟨c, front, hbefore, hc⟩ := sides.before.exists_cons
  obtain ⟨back, d, hbehind, hd⟩ := sides.behind.exists_concat
  have hcne : c ≠ '-' := fun heq => absurd (heq ▸ hc) (by decide)
  have hdne : d ≠ '-' := fun heq => absurd (heq ▸ hd) (by decide)
  have hstart : ∀ text, (stripPrefix? ['-'] (hyphen sides.hyphenBefore ++ (c :: text))).getD
      (hyphen sides.hyphenBefore ++ (c :: text)) = c :: text := by
    intro text
    cases sides.hyphenBefore with
    | true => rfl
    | false => simp [hyphen, stripPrefix?, hcne.symm]
  have hend : ∀ text, (stripSuffix? ['-'] ((text ++ [d]) ++ hyphen sides.hyphenBehind)).getD
      ((text ++ [d]) ++ hyphen sides.hyphenBehind) = text ++ [d] := by
    intro text
    cases sides.hyphenBehind with
    | true => rw [show hyphen true = ['-'] from rfl, stripSuffix?_eq_some.mpr rfl]; rfl
    | false => simp [hyphen, stripSuffix?, stripPrefix?, hdne.symm]
  have hwrap : sides.wrap expression = hyphen sides.hyphenBefore ++
      (c :: ((front ++ (expression ++ back)) ++ [d] ++ hyphen sides.hyphenBehind)) := by
    simp [Sides.wrap, hbefore, hbehind]
  have hbody : sides.before.chars ++ (expression ++ sides.behind.chars) =
      (c :: (front ++ (expression ++ back))) ++ [d] := by
    simp [hbefore, hbehind]
  unfold trimHyphens
  rw [hwrap, hbody, hstart]
  exact hend (c :: (front ++ (expression ++ back)))

/-! ## Assignments -/

/-- An assignment as it is written. -/
structure WrittenAssignment where
  space : Space
  name : Name
  beforeSign : Gap
  behindSign : Gap
  literal : Literal

namespace WrittenAssignment

/-- The expression of an assignment. -/
def source (a : WrittenAssignment) : List Char :=
  "assign".toList ++ (a.space.chars ++ (a.name.chars ++ (a.beforeSign.chars ++
    '=' :: (a.behindSign.chars ++ a.literal.source))))

/-- The assignment that is meant. -/
def meant (a : WrittenAssignment) : Assignment :=
  ⟨a.name.chars, a.literal.value⟩

end WrittenAssignment

/-- **An assignment is read as it is meant.** -/
theorem ofBody?_assignment (a : WrittenAssignment) (before behind : Gap) :
    Assignment.ofBody? (before.chars ++ (a.source ++ behind.chars)) = some a.meant := by
  obtain ⟨n, name, hname⟩ := List.exists_cons_of_ne_nil a.name.ne_nil
  obtain ⟨l, literal, hliteral, hl⟩ := a.literal.exists_cons
  have hn : isPlainBlank n = false :=
    isPlainBlank_of_isVariableChar (a.name.char n (hname ▸ List.mem_cons_self))
  let value := a.literal.source ++ behind.chars
  let sign := a.beforeSign.chars ++ '=' :: (a.behindSign.chars ++ value)
  have hbody : a.source ++ behind.chars =
      "assign".toList ++ (a.space.chars ++ (a.name.chars ++ sign)) := by
    refine (List.append_assoc "assign".toList _ _).trans (congrArg ("assign".toList ++ ·) ?_)
    simp only [sign, value, List.append_assoc, List.cons_append]
  have hword : skipPlain (before.chars ++ ("assign".toList ++ (a.space.chars ++ (a.name.chars ++ sign)))) =
      "assign".toList ++ (a.space.chars ++ (a.name.chars ++ sign)) :=
    skipPlain_gap before (c := 'a') (by decide)
  have hspace : run? isPlainBlank (a.space.chars ++ (a.name.chars ++ sign)) =
      some (a.space.chars, a.name.chars ++ sign) :=
    run?_append a.space.ne_nil a.space.plain fun c hc => by
      rw [hname] at hc
      exact Option.some.inj hc ▸ hn
  have hrun : run? isVariableChar (a.name.chars ++ sign) = some (a.name.chars, sign) :=
    run?_append a.name.ne_nil a.name.char
      (head?_gap (fun _ => isVariableChar_of_isPlainBlank) a.beforeSign _ fun c hc =>
        Option.some.inj hc ▸ by decide)
  have hsign : skipPlain sign = ['='] ++ (a.behindSign.chars ++ value) := skipPlain_gap _ (by decide)
  have hvalue : skipPlain (a.behindSign.chars ++ value) = value := by
    have hcons : value = l :: (literal ++ behind.chars) := congrArg (· ++ behind.chars) hliteral
    rw [hcons]
    exact skipPlain_gap _ hl
  have hread : literal? value = some (a.literal.value, behind.chars) := literal?_source _ _
  rw [hbody, Assignment.ofBody?, hword, stripPrefix?_append]
  simp only [Option.bind_eq_bind, Option.bind_some, hspace, hrun, hsign, hvalue, hread, stripPrefix?_append,
    skipPlain_blanks, List.isEmpty_nil, if_true]
  rfl

/-! ## Outputs -/

/-- The default of an output as it is written. -/
structure WrittenDefault where
  behindBar : Gap
  beforeColon : Gap
  behindColon : Gap
  literal : Literal

/-- A default behind the blanks before it. -/
def WrittenDefault.source (d : WrittenDefault) : List Char :=
  '|' :: (d.behindBar.chars ++ ("default".toList ++ (d.beforeColon.chars ++
    ':' :: (d.behindColon.chars ++ d.literal.source))))

/-- An output as it is written: a name, and a default or none. -/
structure WrittenOutput where
  name : Name
  default? : Option (Gap × WrittenDefault)

namespace WrittenOutput

/-- What stands behind the name of an output. -/
def tail : Option (Gap × WrittenDefault) → List Char
  | none => []
  | some (gap, d) => gap.chars ++ d.source

/-- The expression of an output. -/
def source (o : WrittenOutput) : List Char :=
  o.name.chars ++ tail o.default?

/-- The output that is meant. -/
def meant (o : WrittenOutput) : Output :=
  ⟨o.name.chars, o.default?.map fun d => d.2.literal.value⟩

end WrittenOutput

/-- A body that spells an output, with blanks around it or none, once the hyphens at its ends are taken off. -/
def IsVariable (body : List Char) : Prop :=
  ∃ (before behind : Gap) (o : WrittenOutput), trimHyphens body = before.chars ++ (o.source ++ behind.chars)

theorem WrittenDefault.source_append (d : WrittenDefault) (text : List Char) :
    d.source ++ text = ['|'] ++ (d.behindBar.chars ++ ("default".toList ++
      (d.beforeColon.chars ++ ([':'] ++ (d.behindColon.chars ++ (d.literal.source ++ text)))))) := by
  refine congrArg ('|' :: ·) ((List.append_assoc d.behindBar.chars _ _).trans
    (congrArg (d.behindBar.chars ++ ·) ((List.append_assoc "default".toList _ _).trans
      (congrArg ("default".toList ++ ·) ?_))))
  simp only [List.append_assoc, List.cons_append, List.nil_append]

theorem default?_source (d : WrittenDefault) (gap : Gap) :
    Template.default? (d.source ++ gap.chars) = some (d.literal.value, gap.chars) := by
  obtain ⟨l, literal, hliteral, hl⟩ := d.literal.exists_cons
  let value := d.literal.source ++ gap.chars
  have hword : skipPlain (d.behindBar.chars ++ ("default".toList ++
      (d.beforeColon.chars ++ ([':'] ++ (d.behindColon.chars ++ value))))) =
      "default".toList ++ (d.beforeColon.chars ++ ([':'] ++ (d.behindColon.chars ++ value))) :=
    skipPlain_gap d.behindBar (c := 'd') (by decide)
  have hcolon : skipPlain (d.beforeColon.chars ++ ([':'] ++ (d.behindColon.chars ++ value))) =
      [':'] ++ (d.behindColon.chars ++ value) := skipPlain_gap _ (by decide)
  have hvalue : skipPlain (d.behindColon.chars ++ value) = value := by
    have hcons : value = l :: (literal ++ gap.chars) := congrArg (· ++ gap.chars) hliteral
    rw [hcons]
    exact skipPlain_gap _ hl
  rw [d.source_append, Template.default?, stripPrefix?_append]
  simp only [Option.bind_eq_bind, Option.bind_some, hword, stripPrefix?_append, hcolon, hvalue, value]
  exact literal?_source d.literal gap

/-- **An output is read as it is meant.** -/
theorem ofBody?_output (o : WrittenOutput) (before behind : Gap) :
    Output.ofBody? (before.chars ++ (o.source ++ behind.chars)) = some o.meant := by
  obtain ⟨n, name, hname⟩ := List.exists_cons_of_ne_nil o.name.ne_nil
  have hn : isPlainBlank n = false :=
    isPlainBlank_of_isVariableChar (o.name.char n (hname ▸ List.mem_cons_self))
  let rest := WrittenOutput.tail o.default? ++ behind.chars
  have hstart : skipPlain (before.chars ++ (o.source ++ behind.chars)) = o.name.chars ++ rest := by
    have hcons : o.source ++ behind.chars = n :: (name ++ rest) := by
      simp [WrittenOutput.source, hname, rest]
    rw [hcons, skipPlain_gap before hn, hname]
    rfl
  have hhead : ∀ c ∈ rest.head?, isVariableChar c = false := by
    cases hdefault : o.default? with
    | none =>
      simpa [rest, WrittenOutput.tail, hdefault] using
        head?_gap (fun _ => isVariableChar_of_isPlainBlank) behind [] (by simp)
    | some d =>
      have hgap := head?_gap (fun _ => isVariableChar_of_isPlainBlank) d.1 (d.2.source ++ behind.chars)
        fun c hc => Option.some.inj hc ▸ by decide
      simpa [rest, WrittenOutput.tail, hdefault] using hgap
  have hrun : run? isVariableChar (o.name.chars ++ rest) = some (o.name.chars, rest) :=
    run?_append o.name.ne_nil o.name.char hhead
  rw [Output.ofBody?, hstart]
  simp only [Option.bind_eq_bind, Option.bind_some, hrun]
  cases hdefault : o.default? with
  | none =>
    have hrest : skipPlain rest = [] := by
      simp [rest, WrittenOutput.tail, hdefault, skipPlain_blanks]
    have hnone : Template.default? [] = none := rfl
    simp [hrest, hnone, WrittenOutput.meant, hdefault]
  | some d =>
    have hrest : skipPlain rest = d.2.source ++ behind.chars := by
      have hbar : skipPlain (d.1.chars ++ (d.2.source ++ behind.chars)) = d.2.source ++ behind.chars :=
        skipPlain_gap d.1 (c := '|') (by decide)
      simpa only [rest, WrittenOutput.tail, hdefault, List.append_assoc] using hbar
    simp only [hrest, default?_source, skipPlain_blanks, List.isEmpty_nil, if_true, WrittenOutput.meant, hdefault]
    rfl

theorem exists_default {text value rest : List Char} (h : Template.default? text = some (value, rest)) :
    ∃ d : WrittenDefault, d.literal.value = value ∧ text = d.source ++ rest := by
  simp only [Template.default?, Option.bind_eq_bind, Option.bind_eq_some_iff, stripPrefix?_eq_some] at h
  obtain ⟨bar, rfl, word, hword, colon, hcolon, hliteral⟩ := h
  obtain ⟨behindBar, hbehindBar⟩ := exists_gap bar
  obtain ⟨beforeColon, hbeforeColon⟩ := exists_gap word
  obtain ⟨behindColon, hbehindColon⟩ := exists_gap colon
  obtain ⟨literal, hvalue, hsource⟩ := exists_literal hliteral
  refine ⟨⟨behindBar, beforeColon, behindColon, literal⟩, hvalue, ?_⟩
  rw [WrittenDefault.source_append, ← hsource, ← hbehindColon, ← hcolon, ← hbeforeColon, ← hword, ← hbehindBar]

/-- **Outputs are read, and nothing else is read as one.** -/
theorem isVariable_iff {body : List Char} : IsVariable body ↔ (Output.ofBody? (trimHyphens body)).isSome := by
  constructor
  · rintro ⟨before, behind, o, hbody⟩
    rw [hbody, ofBody?_output]
    rfl
  intro hread
  obtain ⟨o, h⟩ := Option.isSome_iff_exists.mp hread
  simp only [Output.ofBody?, Option.bind_eq_bind, Option.bind_eq_some_iff, Prod.exists] at h
  obtain ⟨name, rest, hrun, h⟩ := h
  obtain ⟨before, hbefore⟩ := exists_gap (trimHyphens body)
  obtain ⟨hname, hne, hchar⟩ := append_of_run? hrun
  obtain ⟨gap, hgap⟩ := exists_gap rest
  split at h
  · next value ending hdefault =>
    obtain ⟨d, -, hsource⟩ := exists_default hdefault
    obtain ⟨behind, hbehind⟩ := exists_gap ending
    have hempty : skipPlain ending = [] := by
      simpa using (Option.ite_none_right_eq_some.mp h).1
    refine ⟨before, behind, ⟨⟨name, hne, hchar⟩, some (gap, d)⟩, ?_⟩
    rw [hbefore, hname, hgap, hsource, hbehind, hempty]
    simp [WrittenOutput.source, WrittenOutput.tail]
  · have hempty : skipPlain rest = [] := by
      simpa using (Option.ite_none_right_eq_some.mp h).1
    refine ⟨before, gap, ⟨⟨name, hne, hchar⟩, none⟩, ?_⟩
    rw [hbefore, hname, hgap, hempty]
    simp [WrittenOutput.source, WrittenOutput.tail]

instance (body : List Char) : Decidable (IsVariable body) :=
  decidable_of_iff _ isVariable_iff.symm

/-- Names and values in pairs are no output. -/
example : ¬ IsVariable " table: sales; measure: amount ".toList := by decide

end DashboardMarkup.Template
