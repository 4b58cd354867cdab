import DashboardMarkup.Edit.Lines
import DashboardMarkup.Proofs.Edit.Walk
import DashboardMarkup.Proofs.Text.Words
import Mathlib.Data.List.TakeWhile

/-!
# Growing a span over its lines

A span that is removed grows over the indentation before it and over the line break behind it.

* `BeginsLine`, `EndsLine`: nothing but blanks stands before a place on its line, or behind it.
* `BeginsLine.indentOf_eq`, `indentOf_eq_nil`: the indentation is taken exactly where a line begins.
* `EndsLine.breakSize_eq`, `breakSize_eq_zero`: the line break is taken exactly where a line ends.
* `wholeLines_eq_ok`: the grown span fits, and what it has gained is blank.
* `Precedes.wholeLines`: of two elements with a tag between them, the grown spans are still apart, also
  when both stand on one line.
-/

namespace DashboardMarkup

namespace Text

variable {before indent behind ending : List Char}

/-! ## Where a line begins -/

/-- **A place begins its line**: nothing but the blanks `indent` stands before it there. -/
structure BeginsLine (before indent : List Char) : Prop where
  blank : ∀ c ∈ indent, isLineBlank c = true
  line : ∃ front, before = front ++ indent ∧ (front = [] ∨ ∃ f, front = f ++ ['\n'])

theorem BeginsLine.line_eq (h : BeginsLine before indent) :
    (before.reverse.takeWhile (· != '\n')).reverse = indent := by
  obtain ⟨front, rfl, hfront⟩ := h.line
  have hindent : ∀ c ∈ indent.reverse, (c != '\n') = true := by
    intro c hc
    have hblank := h.blank c (List.mem_reverse.mp hc)
    rw [bne_iff_ne]
    rintro rfl
    exact absurd hblank (by decide)
  rw [List.reverse_append, List.takeWhile_append_of_pos hindent]
  rcases hfront with rfl | ⟨f, rfl⟩
  · simp
  · simp

theorem BeginsLine.indentOf_eq (h : BeginsLine before indent) : indentOf before = indent := by
  unfold indentOf
  simp only [h.line_eq]
  rw [if_pos (List.all_eq_true.mpr h.blank)]

theorem BeginsLine.size_le (h : BeginsLine before indent) : size indent ≤ size before := by
  obtain ⟨front, rfl, -⟩ := h.line
  simp

/-- Elsewhere no indentation is taken. -/
theorem indentOf_eq_nil (h : ¬∃ indent, BeginsLine before indent) : indentOf before = [] := by
  have hsplit := congrArg List.reverse
    (List.takeWhile_append_dropWhile (p := (· != '\n')) (l := before.reverse))
  rw [List.reverse_append, List.reverse_reverse] at hsplit
  unfold indentOf
  refine if_neg fun hall => h ⟨_, List.all_eq_true.mp hall, _, hsplit.symm, ?_⟩
  cases hdrop : before.reverse.dropWhile (· != '\n') with
  | nil => exact Or.inl rfl
  | cons c t =>
    have hc := not_of_dropWhile_eq_cons hdrop
    rw [bne_eq_false_iff_eq] at hc
    exact Or.inr ⟨t.reverse, by rw [List.reverse_cons, hc]⟩

/-- The indentation is an end of the text, without any other character. -/
theorem append_indentOf (before : List Char) :
    ∃ front, before = front ++ indentOf before ∧ ∀ c ∈ indentOf before, isLineBlank c = true := by
  by_cases hbegins : ∃ indent, BeginsLine before indent
  · obtain ⟨indent, hindent⟩ := hbegins
    obtain ⟨front, hfront, -⟩ := hindent.line
    rw [hindent.indentOf_eq]
    exact ⟨front, hfront, hindent.blank⟩
  · rw [indentOf_eq_nil hbegins]
    exact ⟨before, by simp, by simp⟩

/-- Behind a character that is no blank of a line, an indentation begins anew. -/
theorem indentOf_suffix {c : Char} (hc : isLineBlank c = false) (front rest : List Char) :
    indentOf (front ++ c :: rest) <:+ rest := by
  obtain ⟨start, hstart, hall⟩ := append_indentOf (front ++ c :: rest)
  rcases List.append_eq_append_iff.mp hstart with ⟨m, -, hm⟩ | ⟨m, -, hm⟩
  · cases m with
    | nil =>
      rw [List.nil_append] at hm
      have := hall c (by rw [← hm]; exact List.mem_cons_self)
      rw [hc] at this
      exact absurd this Bool.false_ne_true
    | cons d m =>
      exact ⟨m, (List.cons.inj hm).2.symm⟩
  · have := hall c (by rw [hm]; simp)
    rw [hc] at this
    exact absurd this Bool.false_ne_true

/-! ## Where a line ends -/

/-- **A place ends its line**: nothing but blanks stands behind it there. `ending` is what goes with the line break,
which the last line of a text does not have. -/
inductive EndsLine : List Char → List Char → Prop
  | mark {blanks mark : List Char} (rest : List Char) (blank : ∀ c ∈ blanks, isLineBlank c = true)
      (is_mark : mark = ['\n'] ∨ mark = ['\r', '\n']) : EndsLine (blanks ++ (mark ++ rest)) (blanks ++ mark)
  | text {blanks : List Char} (blank : ∀ c ∈ blanks, isLineBlank c = true) : EndsLine blanks []

theorem EndsLine.breakSize_eq (h : EndsLine behind ending) : breakSize behind = size ending := by
  have hlf : ('\n').utf8Size = 1 := rfl
  have hcr : ('\r').utf8Size = 1 := rfl
  cases h with
  | @mark blanks mark rest hblank hmark =>
    unfold breakSize
    simp only [List.takeWhile_append_of_pos hblank, List.dropWhile_append_of_pos hblank]
    rcases hmark with rfl | rfl
    · simp [isLineBlank, hlf]
    · simp [isLineBlank, hlf, hcr]
  | text hblank =>
    unfold breakSize
    rw [List.dropWhile_eq_nil_iff.mpr hblank]
    rfl

/-- Elsewhere no line break is taken. -/
theorem breakSize_eq_zero (h : ¬∃ ending, EndsLine behind ending) : breakSize behind = 0 := by
  have hblank : ∀ c ∈ behind.takeWhile isLineBlank, isLineBlank c = true := fun c => List.mem_takeWhile_imp
  have hsplit := (List.takeWhile_append_dropWhile (p := isLineBlank) (l := behind)).symm
  unfold breakSize
  simp only
  split
  · next rest hrest =>
    have hends := EndsLine.mark rest hblank (Or.inr rfl)
    rw [hrest] at hsplit
    rw [List.cons_append, List.cons_append, List.nil_append, ← hsplit] at hends
    exact absurd ⟨_, hends⟩ h
  · next rest hrest =>
    have hends := EndsLine.mark rest hblank (Or.inl rfl)
    rw [hrest] at hsplit
    rw [List.cons_append, List.nil_append, ← hsplit] at hends
    exact absurd ⟨_, hends⟩ h
  · rfl

/-- What goes with the line break behind an element: nothing, or blanks and the break. -/
theorem append_breakSize (behind : List Char) :
    ∃ front rest, behind = front ++ rest ∧ size front = breakSize behind ∧
      (∀ c ∈ front, isLineBlank c = true ∨ c = '\r' ∨ c = '\n') ∧
      (front = [] ∨ ∃ t, front = t ++ ['\n']) := by
  by_cases hends : ∃ ending, EndsLine behind ending
  · obtain ⟨ending, hending⟩ := hends
    rw [hending.breakSize_eq]
    cases hending with
    | @mark blanks mark rest hblank hmark =>
      refine ⟨blanks ++ mark, rest, (List.append_assoc _ _ _).symm, rfl, fun c hc => ?_, Or.inr ?_⟩
      · rcases List.mem_append.mp hc with hc | hc
        · exact Or.inl (hblank c hc)
        · rcases hmark with rfl | rfl
          · exact Or.inr (Or.inr (List.mem_singleton.mp hc))
          · exact Or.inr (by simpa using hc)
      · rcases hmark with rfl | rfl
        · exact ⟨blanks, rfl⟩
        · exact ⟨blanks ++ ['\r'], (List.append_assoc _ ['\r'] ['\n']).symm⟩
    | text => exact ⟨[], behind, rfl, rfl, by simp, Or.inl rfl⟩
  · rw [breakSize_eq_zero hends]
    exact ⟨[], behind, rfl, rfl, by simp, Or.inl rfl⟩

/-! ## Two places -/

/-- With a tag between them, the line break behind one place and the indentation before another one do
not meet: a `>` stands before the first place, or a `<` behind it that is not that of the second. -/
theorem break_add_indent_le {front between rest : List Char}
    (htag : (∃ f, front = f ++ ['>']) ∨ ∃ t, between = '<' :: t) :
    breakSize (between ++ '<' :: rest) + size (indentOf (front ++ between)) ≤ size between := by
  obtain ⟨ending, behind, hsplit, hsize, hchars, hends⟩ := append_breakSize (between ++ '<' :: rest)
  have hne : '<' ∉ ending := by
    intro hmem
    have := hchars '<' hmem
    revert this
    decide
  -- the line break ends before the second place
  obtain ⟨more, rfl⟩ : ∃ more, between = ending ++ more := by
    rcases List.append_eq_append_iff.mp hsplit with ⟨m, hm, hbehind⟩ | ⟨m, hm, -⟩
    · cases m with
      | nil => exact ⟨[], by simpa using hm.symm⟩
      | cons d m =>
        refine absurd ?_ hne
        rw [hm, (List.cons.inj hbehind).1]
        simp
    · exact ⟨m, hm⟩
  rw [← hsize, size_append]
  rcases hends with rfl | ⟨t, rfl⟩
  · rw [size_nil, Nat.zero_add, Nat.zero_add, List.nil_append]
    rcases htag with ⟨f, rfl⟩ | ⟨t, ht⟩
    · rw [List.append_assoc]
      exact size_le_of_suffix (indentOf_suffix (by decide) f more)
    · rw [List.nil_append] at ht
      rw [ht]
      refine size_le_of_suffix (List.IsSuffix.trans ?_ (List.suffix_cons '<' t))
      exact indentOf_suffix (by decide) front t
  · have hsuffix : indentOf (front ++ (t ++ ['\n'] ++ more)) <:+ more := by
      have := indentOf_suffix (c := '\n') (by decide) (front ++ t) more
      simpa using this
    have := size_le_of_suffix hsuffix
    omega

end Text

open Text

namespace Span

/-- **A span that fits grows to one that fits**, and has gained nothing but blanks. -/
theorem wholeLines_eq_ok {span : Span} {doc : List Char} (h : span.Fits doc) :
    ∃ before indent covered ending behind,
      doc = before ++ (indent ++ (covered ++ (ending ++ behind))) ∧
        span = ⟨size (before ++ indent), size (before ++ indent) + size covered⟩ ∧
        span.wholeLines doc =
          .ok ⟨size before, size before + size (indent ++ (covered ++ ending))⟩ ∧
        (∀ c ∈ indent, isBlank c = true) ∧ ∀ c ∈ ending, isBlank c = true := by
  obtain ⟨before, covered, behind, hdoc, hstart, hstop⟩ := h
  have haround : span.around? doc = some (before, behind) :=
    around?_eq_some.mpr ⟨covered, hdoc, hstart, hstop⟩
  obtain ⟨front, hfront, hindent⟩ := append_indentOf before
  obtain ⟨ending, rest, hrest, hsize, hending, -⟩ := append_breakSize behind
  have hblank : ∀ c, isLineBlank c = true → isBlank c = true := by
    intro c hc
    simp only [isLineBlank, Bool.or_eq_true, beq_iff_eq] at hc
    rcases hc with rfl | rfl <;> rfl
  refine ⟨front, indentOf before, covered, ending, rest, ?_, ?_, ?_,
    fun c hc => hblank c (hindent c hc), ?_⟩
  · rw [hdoc, ← hrest, ← List.append_assoc front, ← hfront]
  · rw [← hfront]
    obtain ⟨start, stop⟩ := span
    simp only at hstart hstop
    rw [hstop, hstart]
  · have hwhole : size before = size front + size (indentOf before) := by
      rw [← size_append, ← hfront]
    unfold wholeLines
    rw [haround]
    simp only [size_append, Except.ok.injEq, Span.mk.injEq]
    omega
  · intro c hc
    rcases hending c hc with h | rfl | rfl
    · exact hblank c h
    · rfl
    · rfl

end Span

namespace Markup.Element.Precedes

variable {doc : List Char} {a b : Element}

/-- The text between two elements, with the tag that parts them. -/
theorem between (h : a.Precedes doc b) (hb : At doc b.start '<') :
    ∃ front between rest, doc = front ++ (between ++ '<' :: rest) ∧ size front = a.stop ∧
      size (front ++ between) = b.start ∧
      ((∃ f, front = f ++ ['>']) ∨ ∃ t, between = '<' :: t) := by
  have hgt : ('>').utf8Size = 1 := rfl
  obtain ⟨hle, htag⟩ := h
  obtain ⟨before, rest, hdoc, hbefore⟩ := hb
  rcases htag with ⟨n, ⟨f, r, hf, hn⟩, hstop⟩ | ⟨⟨f, r, hf, hstop⟩, hlt⟩
  · have hsize : size (f ++ ['>']) = a.stop := by
      simp only [size_append, size_cons, size_nil, hgt]
      omega
    have hdivide : (f ++ ['>']) ++ r = before ++ '<' :: rest := by
      rw [← hdoc, hf]
      simp
    obtain ⟨m, rfl, hm⟩ := append_of_size_le hdivide (by omega)
    exact ⟨f ++ ['>'], m, rest, by rw [hdoc]; simp, hsize, hbefore, Or.inl ⟨f, rfl⟩⟩
  · obtain ⟨m, rfl, hm⟩ := append_of_size_le (hf.symm.trans hdoc) (by omega)
    refine ⟨f, m, rest, by rw [hdoc]; simp, hstop, hbefore, Or.inr ?_⟩
    cases m with
    | nil =>
      rw [List.append_nil] at hbefore
      omega
    | cons c t => exact ⟨t, by rw [(List.cons.inj hm).1]⟩

/-- **Grown over their lines, two elements are still apart** if the first one precedes the second. -/
theorem wholeLines {grownA grownB : Span} (h : a.Precedes doc b) (hb : At doc b.start '<')
    (hga : a.span.wholeLines doc = .ok grownA) (hgb : b.span.wholeLines doc = .ok grownB) :
    grownA.stop ≤ grownB.start := by
  obtain ⟨front, between, rest, hdoc, hfront, hbetween, htag⟩ := h.between hb
  unfold Span.wholeLines at hga hgb
  split at hga
  · next beforeA behindA hA =>
    split at hgb
    · next beforeB behindB hB =>
      obtain rfl := Except.ok.inj hga
      obtain rfl := Except.ok.inj hgb
      obtain ⟨coveredA, hdocA, -, hstopA⟩ := Span.around?_eq_some.mp hA
      obtain ⟨coveredB, hdocB, hstartB, -⟩ := Span.around?_eq_some.mp hB
      simp only [Element.span] at hstopA hstartB ⊢
      have hbehind : behindA = between ++ '<' :: rest := by
        refine (append_inj_of_size (a := beforeA ++ coveredA) (c := front) ?_ ?_).2
        · rw [List.append_assoc, ← hdocA, hdoc]
        · rw [size_append, hstopA, hfront]
      have hbefore : beforeB = front ++ between := by
        refine (append_inj_of_size (b := coveredB ++ behindB) (d := '<' :: rest) ?_ ?_).1
        · rw [← hdocB, hdoc, List.append_assoc]
        · rw [hstartB, hbetween]
      have hmeet := @break_add_indent_le front between rest htag
      rw [hbehind, hbefore]
      rw [size_append] at hbetween
      omega
    · exact absurd hgb (by simp)
  · exact absurd hga (by simp)

end Markup.Element.Precedes

end DashboardMarkup
