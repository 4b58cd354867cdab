import DashboardMarkup.Proofs.Edit.Block
import DashboardMarkup.Proofs.Edit.Growth
import DashboardMarkup.Proofs.Edit.ReadBack

/-!
# Lines that an element has to itself

An element that is removed should take the indentation before it and the line break behind it only if it has its
lines to itself. The two sides are decided apart, though: an element with other text before it on its line still takes
the line break behind it, so that this text and the next line are joined, and one with other text behind it still takes
its indentation.

* `Span.OwnsLines`: the span that a part of a text should take with it.
* `Span.wholeLines_append`: the one that it takes.
* `wholeLines_each_side`: the span of an element with its lines, and when it is the one it should be.
* `removal_joins_lines`: an element whose removal joins two lines.
-/

namespace DashboardMarkup

open Text

/-! ## Spans with their lines -/

namespace Span

variable {before covered behind : List Char}

/-- **The span that a part of a text should take with it**: the indentation before it and the line break behind it if
it has its lines to itself, and nothing more than itself otherwise. -/
def OwnsLines (before covered behind : List Char) (grown : Span) : Prop :=
  (∃ indent ending, BeginsLine before indent ∧ EndsLine behind ending ∧
      grown = ⟨size before - size indent, size before + size covered + size ending⟩) ∨
    (¬((∃ indent, BeginsLine before indent) ∧ ∃ ending, EndsLine behind ending) ∧
      grown = ⟨size before, size before + size covered⟩)

/-- **The two sides are decided apart.** -/
theorem wholeLines_append (before covered behind : List Char) :
    ∃ indent ending,
      Span.wholeLines ⟨size before, size before + size covered⟩ (before ++ (covered ++ behind)) =
          .ok ⟨size before - size indent, size before + size covered + size ending⟩ ∧
        (BeginsLine before indent ∨ (¬∃ i, BeginsLine before i) ∧ indent = []) ∧
        (EndsLine behind ending ∨ (¬∃ t, EndsLine behind t) ∧ ending = []) := by
  have hgrown : Span.wholeLines ⟨size before, size before + size covered⟩ (before ++ (covered ++ behind)) =
      .ok ⟨size before - size (indentOf before), size before + size covered + breakSize behind⟩ := by
    unfold wholeLines
    rw [Splice.around?_append]
  have hleft : BeginsLine before (indentOf before) ∨ (¬∃ i, BeginsLine before i) ∧ indentOf before = [] := by
    by_cases hbegins : ∃ i, BeginsLine before i
    · obtain ⟨i, hi⟩ := hbegins
      rw [hi.indentOf_eq]
      exact Or.inl hi
    · exact Or.inr ⟨hbegins, indentOf_eq_nil hbegins⟩
  by_cases hends : ∃ t, EndsLine behind t
  · obtain ⟨ending, hending⟩ := hends
    rw [hending.breakSize_eq] at hgrown
    exact ⟨_, ending, hgrown, hleft, Or.inl hending⟩
  · rw [breakSize_eq_zero hends] at hgrown
    exact ⟨_, [], hgrown, hleft, Or.inr ⟨hends, rfl⟩⟩

/-- With a line that is shared with other text, nothing more should be taken. -/
theorem ownsLines_iff_of_shared {grown : Span}
    (h : ¬((∃ indent, BeginsLine before indent) ∧ ∃ ending, EndsLine behind ending)) :
    OwnsLines before covered behind grown ↔ grown = ⟨size before, size before + size covered⟩ := by
  constructor
  · rintro (⟨indent, ending, hindent, hending, -⟩ | ⟨-, hsame⟩)
    · exact absurd ⟨⟨indent, hindent⟩, ending, hending⟩ h
    · exact hsame
  · exact fun hsame => Or.inr ⟨h, hsame⟩

/-- **A span has grown as it should** if both its lines are its own, or both are shared, or it has not grown. -/
theorem ownsLines_iff {indent ending : List Char}
    (hleft : BeginsLine before indent ∨ (¬∃ i, BeginsLine before i) ∧ indent = [])
    (hright : EndsLine behind ending ∨ (¬∃ t, EndsLine behind t) ∧ ending = []) :
    OwnsLines before covered behind ⟨size before - size indent, size before + size covered + size ending⟩ ↔
      ((∃ i, BeginsLine before i) ↔ ∃ t, EndsLine behind t) ∨ indent = [] ∧ ending = [] := by
  by_cases hown : (∃ i, BeginsLine before i) ∧ ∃ t, EndsLine behind t
  · have hindent := hleft.resolve_right fun h => h.1 hown.1
    have hending := hright.resolve_right fun h => h.1 hown.2
    exact iff_of_true (Or.inl ⟨indent, ending, hindent, hending, rfl⟩) (Or.inl (iff_of_true hown.1 hown.2))
  · have hle : size indent ≤ size before := by
      rcases hleft with hindent | ⟨-, rfl⟩
      · exact hindent.size_le
      · exact Nat.zero_le _
    have hsame : (⟨size before - size indent, size before + size covered + size ending⟩ : Span) =
        ⟨size before, size before + size covered⟩ ↔ indent = [] ∧ ending = [] := by
      rw [Span.mk.injEq, ← size_eq_zero, ← size_eq_zero]
      omega
    rw [ownsLines_iff_of_shared hown, hsame]
    refine ⟨Or.inr, fun h => h.elim (fun hboth => ?_) id⟩
    -- both lines are shared, so that nothing is taken on either side
    have hbegins : ¬∃ i, BeginsLine before i := fun h => hown ⟨h, hboth.mp h⟩
    have hends : ¬∃ t, EndsLine behind t := fun h => hown ⟨hboth.mpr h, h⟩
    exact ⟨(hleft.resolve_left fun h => hbegins ⟨_, h⟩).2, (hright.resolve_left fun h => hends ⟨_, h⟩).2⟩

end Span

namespace Edit

open Markup

/-- **An element that is found takes the indentation before it if it begins its line, and the line break behind it if
it ends its line.** This is what it should take exactly if it does both or neither, or if nothing is to be taken. -/
theorem wholeLines_each_side {doc : List Char} {range : Span} {names : List String} {found : List Element}
    (hfound : find doc range names = .ok found) {e : Element} (he : e ∈ found) :
    ∃ before covered behind indent ending, doc = before ++ (covered ++ behind) ∧
      e.span = ⟨size before, size before + size covered⟩ ∧
      e.span.wholeLines doc = .ok ⟨size before - size indent, size before + size covered + size ending⟩ ∧
      (BeginsLine before indent ∨ (¬∃ i, BeginsLine before i) ∧ indent = []) ∧
      (EndsLine behind ending ∨ (¬∃ t, EndsLine behind t) ∧ ending = []) ∧
      (Span.OwnsLines before covered behind ⟨size before - size indent, size before + size covered + size ending⟩ ↔
        ((∃ i, BeginsLine before i) ↔ ∃ t, EndsLine behind t) ∨ indent = [] ∧ ending = []) := by
  obtain ⟨before, covered, behind, hdoc, hstart, hstop⟩ := (stands_of_mem_find hfound e he).2.fits_span
  have hspan : e.span = ⟨size before, size before + size covered⟩ := by
    rw [hstop, hstart]
  obtain ⟨indent, ending, hgrown, hleft, hright⟩ := Span.wholeLines_append before covered behind
  refine ⟨before, covered, behind, indent, ending, hdoc, hspan, ?_, hleft, hright, Span.ownsLines_iff hleft hright⟩
  rw [hspan, hdoc]
  exact hgrown

/-- A widget on a line of its own. -/
def ownLine : Forest :=
  .paired ⟨"group".toList, [], []⟩
    (.text "\n\t".toList (.single plainWidget [] (.text " \r\n b".toList .nil))) ⟨"group".toList, []⟩ .nil

/-- It takes the line as a whole. -/
theorem wholeLines_each_side_own :
    find ownLine.chars ⟨7, 27⟩ ["kpi"] = .ok [⟨"kpi", 9, 22, [⟨"id", "k"⟩], .selfClosing⟩] ∧
      (⟨9, 22⟩ : Span).wholeLines ownLine.chars = .ok ⟨8, 25⟩ ∧
      ∃ before covered behind, ownLine.chars = before ++ (covered ++ behind) ∧ size before = 9 ∧
        size covered = 13 ∧ Span.OwnsLines before covered behind ⟨8, 25⟩ := by
  have hfound : find ownLine.chars ⟨7, 27⟩ ["kpi"] = .ok [⟨"kpi", 9, 22, [⟨"id", "k"⟩], .selfClosing⟩] := by
    have hlist := @find_forest ["kpi"] (by decide)
      (.text "\n\t".toList (.single plainWidget [] (.text " \r\n b".toList .nil))) (by decide) "<group>".toList
      "</group>".toList
    rw [← meant_plainWidget]
    exact hlist
  have hlines : (⟨9, 22⟩ : Span).wholeLines ownLine.chars = .ok ⟨8, 25⟩ := rfl
  refine ⟨hfound, hlines, ?_⟩
  obtain ⟨before, covered, behind, indent, ending, hdoc, hspan, hgrown, hleft, hright, hiff⟩ :=
    wholeLines_each_side hfound List.mem_cons_self
  obtain ⟨hstart, hstop⟩ := Span.mk.inj hspan
  obtain ⟨hfrom, hto⟩ := Span.mk.inj (Except.ok.inj (hlines.symm.trans hgrown))
  simp only [Element.stop] at hstart hstop
  rw [← hfrom, ← hto] at hiff
  refine ⟨before, covered, behind, hdoc, hstart.symm, by omega, hiff.mpr (Or.inl (iff_of_true ?_ ?_))⟩
  · refine ⟨indent, hleft.resolve_right ?_⟩
    rintro ⟨-, rfl⟩
    simp only [size_nil] at hfrom
    omega
  · refine ⟨ending, hright.resolve_right ?_⟩
    rintro ⟨-, rfl⟩
    simp only [size_nil] at hto
    omega

/-- A widget behind other text on its line. -/
def sharedLine : Forest :=
  .paired ⟨"group".toList, [], []⟩
    (.text "a ".toList (.single plainWidget [] (.text "\nb".toList .nil))) ⟨"group".toList, []⟩ .nil

/-- **The line break behind an element goes with it though other text stands before it**: the text before it and the
next line are joined. -/
theorem removal_joins_lines :
    sharedLine.chars = "<group>a <kpi id=\"k\"/>\nb</group>".toList ∧
      elementsById sharedLine.chars widgetNames "k" = .ok [⟨"kpi", 9, 22, [⟨"id", "k"⟩], .selfClosing⟩] ∧
      (⟨9, 22⟩ : Span).wholeLines sharedLine.chars = .ok ⟨9, 23⟩ ∧
      ¬Span.OwnsLines "<group>a ".toList "<kpi id=\"k\"/>".toList "\nb</group>".toList ⟨9, 23⟩ ∧
      removeWidget sharedLine.chars "k" = .ok ("<group>a b</group>".toList, 1) := by
  have hone : elementsById sharedLine.chars widgetNames "k" =
      .ok [⟨"kpi", 9, 22, [⟨"id", "k"⟩], .selfClosing⟩] := by
    have hreached : sharedLine.reached (searchedNames widgetNames) 0 =
        [⟨"group", 0, 7, [], .paired ⟨7, 24⟩ 32⟩, ⟨"kpi", 9, 22, plainWidget.meant, .selfClosing⟩] := by
      rfl
    rw [elementsById_wellFormed (by decide) (by decide), hreached, meant_plainWidget]
    rfl
  have hlines : (⟨9, 22⟩ : Span).wholeLines sharedLine.chars = .ok ⟨9, 23⟩ := rfl
  have hshared : ¬∃ indent, BeginsLine "<group>a ".toList indent := by
    rintro ⟨indent, h⟩
    have hline := h.line_eq
    exact absurd (h.blank '<' (by rw [← hline]; decide)) (by decide)
  have hplan : removalPlan sharedLine.chars (doomedWidgets sharedLine.chars "k") = .ok [⟨⟨9, 23⟩, []⟩] := by
    unfold doomedWidgets
    rw [hone]
    rfl
  refine ⟨by decide, hone, hlines, ?_, ?_⟩
  · rw [Span.ownsLines_iff_of_shared fun h => hshared h.1]
    decide
  · have hcut : Splice.carryOut sharedLine.chars (.ok [⟨⟨9, 23⟩, []⟩]) = .ok "<group>a b</group>".toList :=
      Splice.carryOut_single "<group>a ".toList "<kpi id=\"k\"/>\n".toList "b</group>".toList []
    unfold removeWidget removeLines
    rw [hplan, hcut]
    rfl

end Edit

end DashboardMarkup
