import DashboardMarkup.Proofs.Document.Thinned
import DashboardMarkup.Proofs.Edit.Growth
import DashboardMarkup.Proofs.Edit.Thinning
import DashboardMarkup.Proofs.Template.Untagged

/-!
# What can be read after a removal

Where two parts of a text meet that were apart before, an opening mark of a template may come about, and what stood
before the first tag may be left at the front. Neither happens if no brace stands directly before a tag, and no widget
before the dashboard.

* `isChain_outside`: neighbours in what stands outside of some spans.
* `untagged_remaining`: no opening mark comes about.
* `isMarkup_remaining`: the text still begins with a tag.
* `exists_removed`: what a removal of widgets makes of an orderly board is a dashboard again.
-/

namespace DashboardMarkup

open Text Markup

/-! ## Neighbours -/

namespace Text

variable {spans : List Span}

/-- **Neighbours in what stands outside of some spans** were neighbours before, or the first one stood in front of
a span. -/
theorem isChain_outside {R : Char → Char → Prop} {offset : Nat} {text : List Char} (h : text.IsChain R)
    (hedge : ∀ front c d behind, text = front ++ c :: d :: behind →
      ¬spans.any (·.covers (offset + size front)) = true → spans.any (·.covers (offset + size (front ++ [c]))) = true →
      ∀ e, R c e) : (outside spans offset text).IsChain R := by
  induction text generalizing offset with
  | nil => exact .nil
  | cons c cs ih =>
    have hrest := @ih (offset + c.utf8Size) (List.isChain_of_isChain_cons h) fun front d e behind hcs hout hin => by
      refine hedge (c :: front) d e behind (by rw [hcs]; rfl) ?_ ?_
      · rwa [size_cons, ← Nat.add_assoc]
      · rwa [List.cons_append, size_cons, ← Nat.add_assoc]
    rw [outside_cons]
    split
    · exact hrest
    · next hout =>
      refine hrest.cons fun e he => ?_
      cases cs with
      | nil => exact absurd he (by simp [outside])
      | cons d cs =>
        rw [outside_cons] at he
        split at he
        · next hin => exact hedge [] c d cs rfl (by simpa using hout) (by simpa using hin) e
        · rw [List.head?_cons, Option.mem_some] at he
          rw [← he]
          exact (List.isChain_cons_cons.mp h).1

/-- No opening mark comes about where line breaks are left out. -/
theorem untagged_collapseBreaks {text : List Char} (h : Template.Untagged text) (breaks : Nat) :
    Template.Untagged (collapseBreaks breaks text) := by
  refine (List.isChain_isInfix _).imp fun a b hinfix hbrace => ?_
  have hpair : isBlank b = false → [a, b] <:+: text := fun hb => by
    refine infix_of_collapseBreaks ?_ (List.cons_ne_nil _ _) hinfix
    simpa [hbrace, hb] using (by decide : isBlank '\x7b' = false)
  have hnone : isBlank b = false → b ≠ '\x7b' ∧ b ≠ '%' := fun hb => by
    have hneighbours := List.IsChain.infix h (hpair hb)
    exact (List.isChain_cons_cons.mp hneighbours).1 hbrace
  refine ⟨fun hb => ?_, fun hb => ?_⟩
  · exact (hnone (by rw [hb]; decide)).1 hb
  · exact (hnone (by rw [hb]; decide)).2 hb

/-- A text that begins with a tag, behind some blanks. -/
theorem isMarkup_iff {text : List Char} : Dashboard.isMarkup text = true ↔
    ∃ blanks rest, text = blanks ++ '<' :: rest ∧ ∀ c ∈ blanks, isBlank c = true := by
  unfold Dashboard.isMarkup trimStart
  constructor
  · intro h
    refine ⟨text.takeWhile isBlank, (text.dropWhile isBlank).tail, ?_, fun c hc => List.mem_takeWhile_imp hc⟩
    cases hrest : text.dropWhile isBlank with
    | nil =>
      rw [hrest] at h
      exact absurd h (by simp)
    | cons c rest =>
      rw [hrest, List.head?_cons, beq_iff_eq, Option.some.injEq] at h
      rw [List.tail_cons, ← h, ← hrest, List.takeWhile_append_dropWhile]
  · rintro ⟨blanks, rest, rfl, hblanks⟩
    rw [List.dropWhile_append_of_pos hblanks]
    rfl

end Text

namespace Edit

variable {f : Forest} {found : List Element}

theorem chars_remaining_eq (hf : f.WellFormed) (hcompact : f.AllTags WrittenTag.Compact)
    (h : Chosen f widgetNames found) (hne : found ≠ []) :
    (remaining f found).chars = collapseBreaks 0 (outside (cuttings f.chars found) 0 f.chars) := by
  unfold remaining
  rw [if_neg hne, chars_squeezed (nested_outside hf.nested) (allTags_outside hcompact) 0,
    chars_outside (fair_cuttings h)]

/-- **No brace stands before the lines of an element**, if none stands directly before a tag. -/
theorem not_brace_before_cutting {doc : List Char} {e : Element} {limit : Nat} (h : e.Stands doc limit)
    (hlacks : Template.Lacks '\x7b' '<' doc) {front behind : List Char} {c : Char} (hdoc : doc = front ++ c :: behind)
    (hstart : size (front ++ [c]) = (cutting doc e).span.start) : c ≠ '\x7b' := by
  rintro rfl
  obtain ⟨before, covered, rest, hparts, hbefore, hcovered⟩ := h.fits_span
  have hgrown := wholeLines_eq_cutting h.fits_span
  have haround : e.span.around? doc = some (before, rest) := Span.around?_eq_some.mpr ⟨covered, hparts, hbefore, hcovered⟩
  unfold Span.wholeLines at hgrown
  rw [haround] at hgrown
  have hstart : size (front ++ ['\x7b']) = size before - size (indentOf before) := by
    rw [hstart, ← Except.ok.inj hgrown, hbefore]
  by_cases hbegins : ∃ indent, BeginsLine before indent
  · -- a line begins behind a line break or with the text
    obtain ⟨indent, hindent⟩ := hbegins
    obtain ⟨line, rfl, hline⟩ := hindent.line
    rw [hindent.indentOf_eq, size_append line, Nat.add_sub_cancel] at hstart
    have hsplit : (front ++ ['\x7b']) ++ behind = line ++ (indent ++ (covered ++ rest)) := by
      rw [← List.append_assoc line, ← hparts, hdoc]
      simp
    obtain ⟨hsame, -⟩ := append_inj_of_size hsplit hstart
    rcases hline with rfl | ⟨f, rfl⟩
    · exact absurd hsame (by simp)
    · exact absurd (List.append_inj' hsame rfl).2 (by simp)
  · rw [indentOf_eq_nil hbegins, size_nil, Nat.sub_zero] at hstart
    obtain ⟨a, b, hat, ha⟩ := h.at_start
    have hsplit : a ++ '<' :: b = (front ++ ['\x7b']) ++ behind := by
      rw [← hat, hdoc]
      simp
    obtain ⟨rfl, -⟩ := append_inj_of_size hsplit (by rw [hstart, hbefore, ha]; rfl)
    rw [hat] at hlacks
    have hmeet := (Template.Lacks.append_iff.mp hlacks).2.2 '\x7b' (by simp) '<' (by simp)
    exact hmeet rfl rfl

/-- **No opening mark comes about where widgets are removed**, if no brace stands directly before a tag. -/
theorem untagged_remaining (hf : f.WellFormed) (hcompact : f.AllTags WrittenTag.Compact)
    (h : Chosen f widgetNames found) (huntagged : Template.Untagged f.chars)
    (hlacks : Template.Lacks '\x7b' '<' f.chars) : Template.Untagged (remaining f found).chars := by
  by_cases hnil : found = []
  · unfold remaining
    rwa [if_pos hnil]
  rw [chars_remaining_eq hf hcompact h hnil]
  refine untagged_collapseBreaks (isChain_outside huntagged fun front c d behind hdoc hout hin e hbrace => ?_) 0
  rw [Nat.zero_add] at hout hin
  obtain ⟨span, hspan, hcovers⟩ := List.any_eq_true.mp hin
  obtain ⟨w, hw, rfl⟩ := List.mem_map.mp hspan
  obtain ⟨limit, hstands⟩ := h.settled.stands w hw
  refine absurd hbrace (not_brace_before_cutting hstands hlacks hdoc ?_)
  -- the lines begin between these two characters
  have hmissed : ¬(cutting f.chars w).span.covers (size front) = true := fun hcovers =>
    hout (List.any_eq_true.mpr ⟨_, hspan, hcovers⟩)
  obtain ⟨before, rest, hbefore, hstart⟩ := (cutting_fits hstands.fits_span).1.boundary_start
  rw [Span.covers_iff, ← hstart] at hcovers hmissed
  have hpos := c.utf8Size_pos
  rw [size_append, size_cons, size_nil] at hcovers ⊢
  obtain ⟨gap, rfl, hgap⟩ := append_of_size_le (hdoc.symm.trans hbefore) (by omega)
  cases gap with
  | nil =>
    rw [List.append_nil] at hmissed
    omega
  | cons c' gap =>
    obtain ⟨rfl, -⟩ := List.cons.inj hgap
    rw [size_append, size_cons] at hstart hcovers
    omega

/-- Before a widget that the walk reaches a tag stands, if the first of dashboards and widgets is a dashboard. -/
theorem exists_tag_before {doc : List Char} {before behind : List Char} (hdoc : doc = before ++ (f.chars ++ behind))
    (hfront : ∀ n ∈ (f.nodes ("dashboard" :: widgetNames)).head?, n.name = "dashboard") :
    ∀ e ∈ f.reached (searchedNames widgetNames) (size before), e.name ∈ widgetNames →
      ∃ n, At doc n '<' ∧ n < e.start := by
  have hown : ∀ {tag : WrittenTag} {name : String}, tag.nameIn? widgetNames = some name →
      tag.nameIn? ("dashboard" :: widgetNames) = some name ∧ name ≠ "dashboard" := fun {tag name} hin => by
    rcases nameIn?_foreign foreign_dashboard tag with ⟨-, -, hnone⟩ | ⟨-, hall, hname⟩
    · exact absurd (hin.symm.trans hnone) (by simp)
    · exact ⟨hall.trans hin, hname name hin⟩
  induction f generalizing before with
  | nil => simp [Forest.reached]
  | text t rest ih =>
    rw [Forest.reached, ← size_append]
    exact @ih (before ++ t) (by rw [hdoc]; simp [Forest.chars]) hfront
  | comment t rest ih =>
    intro e he _
    have hat : At doc (size before) '<' := ⟨before, _, by rw [hdoc, chars_comment, comment_eq]; rfl, rfl⟩
    exact ⟨_, hat, by have := span_of_reached (f := rest) e he; omega⟩
  | single tag gap rest ih =>
    intro e he hname
    have hat : At doc (size before) '<' :=
      ⟨before, _, by rw [hdoc, Forest.chars, WrittenTag.text, List.cons_append, List.cons_append], rfl⟩
    refine ⟨_, hat, ?_⟩
    rcases List.mem_append.mp he with he | he
    · obtain ⟨name, hin, -⟩ := own_widget (fun _ => rfl) he hname
      obtain ⟨hall, hother⟩ := hown hin
      exact absurd (hfront _ (by rw [Forest.nodes, hall]; rfl)) hother
    · have := span_of_reached e he
      omega
  | paired tag children close rest ihc ih =>
    intro e he hname
    have hat : At doc (size before) '<' :=
      ⟨before, _, by rw [hdoc, Forest.chars, WrittenTag.text, List.cons_append, List.cons_append], rfl⟩
    refine ⟨_, hat, ?_⟩
    rcases mem_reached_paired he with ⟨-, -, he⟩ | ⟨-, he⟩ | he
    · obtain ⟨name, hin, -⟩ := he hname
      obtain ⟨hall, hother⟩ := hown hin
      exact absurd (hfront _ (by rw [Forest.nodes, hall]; rfl)) hother
    · have := span_of_reached e he
      omega
    · have := span_of_reached e he
      omega

/-- **The text still begins with a tag**, if no widget stands before the dashboard. -/
theorem isMarkup_remaining (hf : f.WellFormed) (hcompact : f.AllTags WrittenTag.Compact)
    (h : Chosen f widgetNames found) (hmarkup : Dashboard.isMarkup f.chars = true)
    (hfront : ∀ n ∈ (f.nodes ("dashboard" :: widgetNames)).head?, n.name = "dashboard") :
    Dashboard.isMarkup (remaining f found).chars = true := by
  by_cases hnil : found = []
  · unfold remaining
    rwa [if_pos hnil]
  obtain ⟨blanks, rest, hdoc, hblanks⟩ := isMarkup_iff.mp hmarkup
  -- no widget that is removed covers the first tag, for another one stands before it
  have hkept : ¬(cuttings f.chars found).any (·.covers (0 + size blanks)) = true := by
    intro hany
    obtain ⟨span, hspan, hcovers⟩ := List.any_eq_true.mp hany
    obtain ⟨w, hw, rfl⟩ := List.mem_map.mp hspan
    obtain ⟨limit, hstands⟩ := h.settled.stands w hw
    rw [Nat.zero_add, (grown_cutting hstands).covers _ _ ⟨blanks, rest, hdoc, rfl⟩ rfl, Span.covers_iff] at hcovers
    obtain ⟨n, hat, hlt⟩ := @exists_tag_before f f.chars [] [] (by simp) hfront w (h.reached w hw) (h.settled.named w hw)
    have hblank := hblanks '<' (At.mem (a := []) (b := blanks) (d := '<' :: rest) (by rw [← hdoc]; exact hat)
      (Nat.zero_le n) (by have := hcovers.1; simp only [size_nil, Element.span] at this ⊢; omega))
    exact absurd hblank (by decide)
  rw [chars_remaining_eq hf hcompact h hnil]
  generalize cuttings f.chars found = spans at hkept ⊢
  rw [hdoc, outside_append, outside_cons, if_neg hkept, collapseBreaks_append_of_not_blank rfl]
  exact isMarkup_iff.mpr ⟨_, _, rfl, fun c hc =>
    hblanks c (mem_of_mem_outside (mem_of_mem_collapseBreaks hc))⟩

/-! ## What a removal makes of an orderly board -/

variable {root : Node} {id : String}

/-- **What a removal makes of an orderly board**: `all` are the widgets that carry an id, and `found` are those of them
that are removed. The text that is left can be read, and is that of the tree without them. -/
theorem exists_removed {gone kept : Node → Prop} (h : f.IsOrderly root) (hcompact : f.AllTags WrittenTag.Compact)
    (hlacks : Template.Lacks '\x7b' '<' f.chars) {all found : List Element}
    (hall : elementsById f.chars widgetNames id = .ok all) (hsub : found.Sublist all)
    (hgone : ∀ n : Node, n.carries id = true → gone n)
    (hkept : ∀ e ∈ f.reached (searchedNames widgetNames) 0, e ∉ found → ∀ n : Node, n.Shown f.chars e →
      (n.carries id = true → e ∈ all) → kept n) :
    removeLines f.chars (removalPlan f.chars (.ok found)) = .ok ((remaining f found).chars, found.length) ∧
      f.Thinned widgetNames gone kept (remaining f found) ∧
      ∃ root', root.Thinned widgetNames gone kept root' ∧ (remaining f found).IsDashboard root' ∧
        (Dashboard.parse (remaining f found).chars).widgets =
          (root'.gridNodes.filterMap Node.widget?).map root.dress := by
  have hchosen := chosen_of_elementsById h.wellFormed (by decide) hall hsub
  have hanswers := elementsById_wellFormed searchable_of_mem_widgetNames h.wellFormed id
  obtain rfl := Except.ok.inj (hall.symm.trans hanswers)
  have hthinned : f.Thinned widgetNames gone kept (remaining f found) := by
    refine thinned_remaining h.wellFormed hchosen (fun d hd n hn => hgone n ?_)
      (fun e he hname hspared n hn => hkept e he (not_mem_of_spared hspared) n hn fun hcarries => ?_) hcompact
    · have hanswer := (List.mem_filter.mp (hsub.subset hd)).2
      rw [answers_shown hn, Bool.and_eq_true] at hanswer
      exact hanswer.2
    · rw [hn.name] at hname
      refine List.mem_filter.mpr ⟨he, ?_⟩
      rw [answers_shown hn, hcarries, List.contains_iff_mem.mpr hname]
      rfl
  exact ⟨chars_remaining h.wellFormed hcompact hchosen (unnested_widgets hchosen.settled), hthinned,
    exists_root_thinned h hthinned (wellFormed_remaining h.wellFormed)
      (untagged_remaining h.wellFormed hcompact hchosen h.untagged hlacks)
      (isMarkup_remaining h.wellFormed hcompact hchosen h.markup h.front)⟩

end Edit

end DashboardMarkup
