import DashboardMarkup.Proofs.Edit.Reach
import DashboardMarkup.Proofs.Edit.Remaining
import DashboardMarkup.Proofs.Markup.Thinned

/-!
# What a removal of widgets leaves of a tree

A removal of widgets cuts each of them out with its lines, and what it cuts besides is white space. So a widget that
stays, and any other element without a removed one in it, is as it was but for superfluous line breaks.

* `alike_squeezed`: a tree without its superfluous line breaks.
* `Cuts`: what cuts take out of a part of a document; `Cuts.narrow`: of a part of this part.
* `thinned_outside`: the tree outside of the cuts.
* `thinned_remaining`: the tree that a removal leaves.
-/

namespace DashboardMarkup

open Text Markup

namespace Markup

variable {doc : List Char} {spans : List Span} {span : Span} {gone kept : Node → Prop} {f g : Forest}
  {offset offset' : Nat}

/-- **A tree without its superfluous line breaks** differs from it by these alone. -/
theorem alike_squeezed (hf : f.Nested) (hcompact : f.AllTags WrittenTag.Compact) (breaks : Nat) :
    f.Alike (f.squeezed breaks) := by
  have hsqueezed : ∀ t : WrittenTag, t.SaysAs t.squeezed := fun t => ⟨rfl, (meant_squeezed t).symm⟩
  induction f generalizing breaks with
  | nil => exact .nil
  | text t rest ih => exact .text _ _ (ih hf.2 hcompact _)
  | comment t rest ih => exact .comment _ _ (ih hf.2 hcompact _)
  | single tag gap rest ih => exact .single _ _ (hsqueezed tag) (ih hf.2.2 hcompact.2 _)
  | paired tag children close rest ihc ih =>
    obtain ⟨-, -, -, hchildren, hrest⟩ := hf
    refine .paired _ _ (hsqueezed tag) (ihc hchildren hcompact.2.1 _) ?_ (ih hrest hcompact.2.2 _)
    rw [chars_squeezed hchildren hcompact.2.1]
    exact respaced_collapseBreaks 0 children.chars

/-! ## Parts of a tree that no cut touches -/

theorem misses_of_within {start stop start' stop' : Nat} (h : span.Misses start stop) (hstart : start ≤ start')
    (hstop : stop' ≤ stop) : span.Misses start' stop' := by
  unfold Span.Misses at h ⊢
  omega

/-- Spans that keep clear of a tree leave it as it is. -/
theorem outside_of_misses (h : ∀ span ∈ spans, span.Misses offset (offset + size f.chars)) :
    f.outside spans offset = f := by
  have hfront : ∀ {f : Forest} {offset : Nat}, 0 < size f.chars →
      (∀ span ∈ spans, span.Misses offset (offset + size f.chars)) → ¬spans.any (·.covers offset) = true := by
    intro f offset hpos h hany
    obtain ⟨span, hspan, hcovers⟩ := List.any_eq_true.mp hany
    rw [(h span hspan).not_covers (Nat.le_refl offset) (by omega)] at hcovers
    exact absurd hcovers (by simp)
  induction f generalizing offset with
  | nil => rfl
  | text t rest ih =>
    rw [Forest.chars, size_append] at h
    rw [Forest.outside, ih fun span hspan => misses_of_within (h span hspan) (by omega) (by omega),
      outside_eq_self fun n hlo hhi span hspan => (h span hspan).not_covers hlo (by omega)]
  | comment t rest ih =>
    have hnone := hfront (by rw [size_chars_comment]; omega) h
    rw [size_chars_comment] at h
    rw [Forest.outside, if_neg hnone, ih fun span hspan => misses_of_within (h span hspan) (by omega) (by omega)]
  | single tag gap rest ih =>
    have hnone := hfront (by rw [size_chars_single]; omega) h
    rw [size_chars_single] at h
    rw [Forest.outside, if_neg hnone, ih fun span hspan => misses_of_within (h span hspan) (by omega) (by omega)]
  | paired tag children close rest ihc ih =>
    have hnone := hfront (by rw [size_chars_paired]; omega) h
    rw [size_chars_paired] at h
    rw [Forest.outside, if_neg hnone, ihc fun span hspan => misses_of_within (h span hspan) (by omega) (by omega),
      ih fun span hspan => misses_of_within (h span hspan) (by omega) (by omega)]

/-! ## Tags of widgets on the walk -/

theorem searched_of_widget {tag : WrittenTag} {name : String} (h : tag.nameIn? widgetNames = some name) :
    tag.nameIn? (searchedNames widgetNames) = some name ∧ name ∈ widgetNames ∧
      tag.admits (searchedNames widgetNames) = false := by
  rcases Edit.nameIn?_searched tag with ⟨_, -, -, -, hnone⟩ | ⟨hall, hname⟩
  · exact absurd (h.symm.trans hnone) (by simp)
  · obtain ⟨hmem, hcontainer⟩ := hname name h
    exact ⟨hall.trans h, hmem, (admits_of_some (hall.trans h)).trans hcontainer⟩

/-- The walk goes into every element that is no widget. -/
theorem admits_of_not_widget {tag : WrittenTag} (h : tag.nameIn? widgetNames = none) :
    tag.admits (searchedNames widgetNames) = true := by
  rcases Edit.nameIn?_searched tag with ⟨_, hall, -, hcontainer, -⟩ | ⟨hall, -⟩
  · exact (admits_of_some hall).trans hcontainer
  · exact admits_of_none (hall.trans h)

/-- A widget that the walk reaches by its own tag. -/
theorem own_widget {tag : WrittenTag} {element : String → Element} (hname : ∀ name, (element name).name = name)
    {d : Element} (hd : d ∈ (tag.nameIn? (searchedNames widgetNames)).toList.map element)
    (hwidget : d.name ∈ widgetNames) : ∃ name, tag.nameIn? widgetNames = some name ∧ d = element name := by
  obtain ⟨name, hin, rfl⟩ := List.mem_map.mp hd
  rw [hname] at hwidget
  refine ⟨name, ?_, rfl⟩
  rcases Edit.nameIn?_searched tag with ⟨other, hall, hother, -, -⟩ | ⟨hall, -⟩
  · rw [hall, Option.mem_toList] at hin
    exact absurd (Option.some.inj hin ▸ hwidget) hother
  · rw [← hall]
    exact Option.mem_toList.mp hin

/-! ## What cuts take out of a tree -/

/-- **What some cuts take out of a part of a document**: all that they cover there besides white space belongs to
widgets that the walk reaches, and these are gone. The other widgets that it reaches are kept. -/
structure Cuts (doc : List Char) (spans : List Span) (gone kept : Node → Prop) (f : Forest) (offset : Nat) :
    Prop where
  fair : ∀ span ∈ spans, f.Fair span offset
  taken : ∀ span ∈ spans, ∀ n c, At doc n c → isBlank c = false → offset ≤ n → n < offset + size f.chars →
    span.covers n = true → ∃ d ∈ f.reached (searchedNames widgetNames) offset, d.name ∈ widgetNames ∧
      span.Takes d.start d.stop ∧ d.start ≤ n ∧ n < d.stop ∧ ∀ m : Node, m.Shown doc d → gone m
  kept : ∀ e ∈ f.reached (searchedNames widgetNames) offset, e.name ∈ widgetNames → e.isLeft spans = true →
    ∀ m : Node, m.Shown doc e → kept m

/-- A part of this part has the widgets that lie in it. -/
theorem Cuts.narrow (h : Cuts doc spans gone kept f offset) (hfair : ∀ span ∈ spans, g.Fair span offset')
    (hstart : offset ≤ offset') (hstop : offset' + size g.chars ≤ offset + size f.chars)
    (hsub : ∀ e ∈ g.reached (searchedNames widgetNames) offset', e ∈ f.reached (searchedNames widgetNames) offset)
    (hother : ∀ d ∈ f.reached (searchedNames widgetNames) offset, d.name ∈ widgetNames →
      d ∈ g.reached (searchedNames widgetNames) offset' ∨ d.stop ≤ offset' ∨ offset' + size g.chars ≤ d.start) :
    Cuts doc spans gone kept g offset' where
  fair := hfair
  taken span hspan n c hc hblank hlo hhi hcovers := by
    obtain ⟨d, hd, hname, htakes, hdlo, hdhi, hgone⟩ :=
      h.taken span hspan n c hc hblank (by omega) (by omega) hcovers
    refine ⟨d, (hother d hd hname).resolve_right ?_, hname, htakes, hdlo, hdhi, hgone⟩
    omega
  kept e he := h.kept e (hsub e he)

/-- A cut that covers a character besides white space keeps clear of the content of an element, if it keeps clear of
both tags and covers nothing but white space between them. -/
theorem misses_content {openEnd closeStart stop : Nat} (hvisible : ∃ n c, At doc n c ∧ isBlank c = false ∧
    span.covers n = true) (hopen : span.Misses offset openEnd) (hclose : span.Misses closeStart stop)
    (hnone : ∀ n c, At doc n c → isBlank c = false → openEnd ≤ n → n < closeStart → ¬span.covers n = true)
    (hlt : offset < openEnd) (hlt' : closeStart < stop) : span.Misses openEnd closeStart := by
  obtain ⟨n, c, hc, hblank, hcovers⟩ := hvisible
  have hout := hnone n c hc hblank
  have hspan := hcovers
  rw [Span.covers_iff] at hspan
  unfold Span.Misses at hopen hclose ⊢
  by_contra hmeets
  exact hout (by omega) (by omega) hcovers

/-- The widgets in the content of an element, where no cut touches it. -/
theorem kept_of_misses {children : Forest} {before behind : List Char} (hdoc : doc = before ++ (children.chars ++ behind))
    (hmisses : ∀ span ∈ spans, span.Misses (size before) (size before + size children.chars))
    (hkept : ∀ e ∈ children.reached (searchedNames widgetNames) (size before), e.name ∈ widgetNames →
      e.isLeft spans = true → ∀ m : Node, m.Shown doc e → kept m) : ∀ n ∈ children.nodes widgetNames, kept n := by
  intro n hn
  rw [← Edit.filter_reachedNodes] at hn
  obtain ⟨hn, hname⟩ := List.mem_filter.mp hn
  obtain ⟨e, he, hshown⟩ := exists_of_mem_left (shown_reached _ hdoc) hn
  obtain ⟨hlo, hlt, hhi⟩ := span_of_reached e he
  refine hkept e he (by rw [hshown.name]; exact of_decide_eq_true hname) ?_ n hshown
  rw [Element.isLeft, Bool.not_eq_true', ← Bool.not_eq_true]
  intro hany
  obtain ⟨span, hspan, hcovers⟩ := List.any_eq_true.mp hany
  rw [(hmisses span hspan).not_covers hlo (by omega)] at hcovers
  exact absurd hcovers (by simp)

/-! ## Parts of a tree and the cuts there -/

section

variable {tag : WrittenTag} {gap : List Char} {children rest : Forest} {close : WrittenClose} {before behind : List Char}

theorem split_single (hdoc : doc = before ++ ((Forest.single tag gap rest).chars ++ behind)) :
    doc = (before ++ (tag.text ++ ('/' :: gap ++ ['>']))) ++ (rest.chars ++ behind) := by
  rw [hdoc]
  simp [Forest.chars]

theorem split_open (hdoc : doc = before ++ ((Forest.paired tag children close rest).chars ++ behind)) :
    doc = (before ++ (tag.text ++ ['>'])) ++ (children.chars ++ (close.text ++ (rest.chars ++ behind))) := by
  rw [hdoc]
  simp [Forest.chars]

theorem Cuts.behind_text {t : List Char} (h : Cuts doc spans gone kept (.text t rest) offset) :
    Cuts doc spans gone kept rest (offset + size t) := by
  refine h.narrow h.fair (by omega) ?_ (fun e he => he) fun d hd _ => .inl hd
  simp only [Forest.chars, size_append]
  omega

theorem Cuts.behind_comment {t : List Char} (h : Cuts doc spans gone kept (.comment t rest) offset) :
    Cuts doc spans gone kept rest (offset + 4 + size t + 3) := by
  refine h.narrow (fun span hspan => (h.fair span hspan).2) (by omega) ?_ (fun e he => he) fun d hd _ => .inl hd
  rw [size_chars_comment]
  omega

theorem Cuts.behind_single (h : Cuts doc spans gone kept (.single tag gap rest) offset) :
    Cuts doc spans gone kept rest (offset + size tag.text + 1 + size gap + 1) := by
  refine h.narrow (fun span hspan => (h.fair span hspan).2) (by omega) ?_ (fun e he => List.mem_append_right _ he)
    fun d hd _ => ?_
  · rw [size_chars_single]
    omega
  · rcases List.mem_append.mp hd with hd | hd
    · obtain ⟨name, -, rfl⟩ := List.mem_map.mp hd
      exact .inr (.inl (Nat.le_refl _))
    · exact .inl hd

/-- What the walk reaches of an element and behind it. -/
theorem mem_reached_paired {d : Element}
    (hd : d ∈ (Forest.paired tag children close rest).reached (searchedNames widgetNames) offset) :
    (d.start = offset ∧ d.stop = offset + size tag.text + 1 + size children.chars + size close.text ∧
        (d.name ∈ widgetNames → ∃ name, tag.nameIn? widgetNames = some name ∧ d = ⟨name, offset,
          offset + size tag.text + 1, tag.meant, .paired ⟨offset + size tag.text + 1,
            offset + size tag.text + 1 + size children.chars⟩
            (offset + size tag.text + 1 + size children.chars + size close.text)⟩)) ∨
      (tag.admits (searchedNames widgetNames) = true ∧
        d ∈ children.reached (searchedNames widgetNames) (offset + size tag.text + 1)) ∨
      d ∈ rest.reached (searchedNames widgetNames)
        (offset + size tag.text + 1 + size children.chars + size close.text) := by
  rcases List.mem_append.mp hd with hown | hd
  · refine .inl ?_
    obtain ⟨name, -, rfl⟩ := List.mem_map.mp hown
    exact ⟨rfl, rfl, own_widget (fun _ => rfl) hown⟩
  · refine .inr ((List.mem_append.mp hd).imp_left fun hd => ?_)
    split at hd
    · next hadmits => exact ⟨hadmits, hd⟩
    · exact absurd hd List.not_mem_nil

theorem Cuts.behind_paired (h : Cuts doc spans gone kept (.paired tag children close rest) offset) :
    Cuts doc spans gone kept rest (offset + size tag.text + 1 + size children.chars + size close.text) := by
  refine h.narrow (fun span hspan => (h.fair span hspan).2) (by omega) ?_
    (fun e he => List.mem_append_right _ (List.mem_append_right _ he)) fun d hd _ => ?_
  · rw [size_chars_paired]
    omega
  · rcases mem_reached_paired hd with ⟨-, hstop, -⟩ | ⟨-, hd⟩ | hd
    · exact .inr (.inl (Nat.le_of_eq hstop))
    · have := span_of_reached d hd
      exact .inr (.inl (by omega))
    · exact .inl hd

/-- The content of an element that is no widget and that no cut takes. -/
theorem Cuts.content (h : Cuts doc spans gone kept (.paired tag children close rest) offset)
    (hfair : ∀ span ∈ spans, children.Fair span (offset + size tag.text + 1))
    (hin : tag.nameIn? widgetNames = none) : Cuts doc spans gone kept children (offset + size tag.text + 1) := by
  refine h.narrow hfair (by omega) ?_ (fun e he => ?_) fun d hd hname => ?_
  · rw [size_chars_paired]
    omega
  · refine List.mem_append_right _ (List.mem_append_left _ ?_)
    rwa [if_pos (admits_of_not_widget hin)]
  · rcases mem_reached_paired hd with ⟨-, -, hown⟩ | ⟨-, hd⟩ | hd
    · obtain ⟨name, hsome, -⟩ := hown hname
      exact absurd (hsome.symm.trans hin) (by simp)
    · exact .inl hd
    · have := span_of_reached d hd
      exact .inr (.inr (by omega))

/-- A comment is not cut out. -/
theorem Cuts.comment {t : List Char} (h : Cuts doc spans gone kept (.comment t rest) (size before))
    (hdoc : doc = before ++ ((Forest.comment t rest).chars ++ behind)) :
    ¬spans.any (·.covers (size before)) = true := by
  intro hany
  obtain ⟨span, hspan, hcovers⟩ := List.any_eq_true.mp hany
  have hlt : At doc (size before) '<' := ⟨before, "!--".toList ++ (t ++ ("-->".toList ++ (rest.chars ++ behind))),
    by rw [hdoc]; simp [Forest.chars], rfl⟩
  obtain ⟨d, hd, -, -, hdlo, -⟩ := h.taken span hspan _ _ hlt rfl (Nat.le_refl _)
    (by rw [size_chars_comment]; omega) hcovers
  have := (span_of_reached (f := rest) d hd).1
  omega

/-- **A tag that is cut out is that of a widget, which is gone.** -/
theorem Cuts.gone_single (h : Cuts doc spans gone kept (.single tag gap rest) (size before))
    (hdoc : doc = before ++ ((Forest.single tag gap rest).chars ++ behind))
    (hany : spans.any (·.covers (size before)) = true) :
    ∃ name, tag.nameIn? widgetNames = some name ∧ gone ⟨name, tag.meant, .nil⟩ := by
  obtain ⟨span, hspan, hcovers⟩ := List.any_eq_true.mp hany
  obtain ⟨d, hd, hname, -, hdlo, -, hgone⟩ := h.taken span hspan _ '<'
    ⟨before, _, by rw [hdoc, Forest.chars, WrittenTag.text, List.cons_append, List.cons_append], rfl⟩ rfl
    (Nat.le_refl _) (by rw [size_chars_single]; omega) hcovers
  obtain ⟨name, hin, rfl⟩ := own_widget (fun _ => rfl) ((List.mem_append.mp hd).resolve_right fun hd => by
    have := span_of_reached d hd
    omega) hname
  refine ⟨name, hin, hgone _ ?_⟩
  rw [size_single]
  exact shown_single name _ _ (split_single hdoc)

theorem Cuts.gone_paired (h : Cuts doc spans gone kept (.paired tag children close rest) (size before))
    (hdoc : doc = before ++ ((Forest.paired tag children close rest).chars ++ behind))
    (hany : spans.any (·.covers (size before)) = true) :
    ∃ name, tag.nameIn? widgetNames = some name ∧ gone ⟨name, tag.meant, children⟩ := by
  obtain ⟨span, hspan, hcovers⟩ := List.any_eq_true.mp hany
  obtain ⟨d, hd, hname, -, hdlo, -, hgone⟩ := h.taken span hspan _ '<'
    ⟨before, _, by rw [hdoc, Forest.chars, WrittenTag.text, List.cons_append, List.cons_append], rfl⟩ rfl
    (Nat.le_refl _) (by rw [size_chars_paired]; omega) hcovers
  rcases mem_reached_paired hd with ⟨-, -, hown⟩ | ⟨-, hd⟩ | hd
  · obtain ⟨name, hin, rfl⟩ := hown hname
    refine ⟨name, hin, hgone _ ?_⟩
    rw [size_open]
    exact shown_paired name _ _ _ (split_open hdoc)
  · have := span_of_reached d hd
    omega
  · have := span_of_reached d hd
    omega

/-- **A widget that is not cut out is kept.** -/
theorem Cuts.kept_single (h : Cuts doc spans gone kept (.single tag gap rest) (size before))
    (hdoc : doc = before ++ ((Forest.single tag gap rest).chars ++ behind))
    (hany : ¬spans.any (·.covers (size before)) = true) {name : String} (hin : tag.nameIn? widgetNames = some name) :
    kept ⟨name, tag.meant, .nil⟩ := by
  obtain ⟨hall, hname, -⟩ := searched_of_widget hin
  refine h.kept _ (List.mem_append_left _ (List.mem_map.mpr ⟨name, Option.mem_toList.mpr hall, rfl⟩)) hname
    (by rw [Element.isLeft, Bool.not_eq_true', ← Bool.not_eq_true]; exact hany) _ ?_
  rw [size_single]
  exact shown_single name _ _ (split_single hdoc)

theorem Cuts.kept_paired (h : Cuts doc spans gone kept (.paired tag children close rest) (size before))
    (hdoc : doc = before ++ ((Forest.paired tag children close rest).chars ++ behind))
    (hany : ¬spans.any (·.covers (size before)) = true) {name : String} (hin : tag.nameIn? widgetNames = some name) :
    kept ⟨name, tag.meant, children⟩ := by
  obtain ⟨hall, hname, -⟩ := searched_of_widget hin
  refine h.kept _ (List.mem_append_left _ (List.mem_map.mpr ⟨name, Option.mem_toList.mpr hall, rfl⟩)) hname
    (by rw [Element.isLeft, Bool.not_eq_true', ← Bool.not_eq_true]; exact hany) _ ?_
  rw [size_open]
  exact shown_paired name _ _ _ (split_open hdoc)

/-- **Where cuts take something out of the content of an element, but not the element**, it is no widget, and a widget
in it is gone. -/
theorem Cuts.gone_inside (h : Cuts doc spans gone kept (.paired tag children close rest) (size before))
    (hdoc : doc = before ++ ((Forest.paired tag children close rest).chars ++ behind))
    (hany : ¬spans.any (·.covers (size before)) = true) {n : Nat} {c : Char} (hspan : span ∈ spans) (hc : At doc n c)
    (hblank : isBlank c = false) (hlo : size before + size tag.text + 1 ≤ n)
    (hhi : n < size before + size tag.text + 1 + size children.chars) (hcovers : span.covers n = true) :
    tag.nameIn? widgetNames = none ∧ ∃ m ∈ children.nodes widgetNames, gone m := by
  obtain ⟨d, hd, hname, htakes, hdlo, hdhi, hgone⟩ := h.taken span hspan n c hc hblank (by omega)
    (by rw [size_chars_paired]; omega) hcovers
  rcases mem_reached_paired hd with ⟨hstart, hstop, -⟩ | ⟨hadmits, hd⟩ | hd
  · refine absurd (List.any_eq_true.mpr ⟨span, hspan, htakes.covers (Nat.le_of_eq hstart) ?_⟩) hany
    omega
  · constructor
    · cases hin : tag.nameIn? widgetNames with
      | none => rfl
      | some name =>
        obtain ⟨-, -, hclosed⟩ := searched_of_widget hin
        exact absurd (hadmits.symm.trans hclosed) (by simp)
    · rw [size_open] at hd
      obtain ⟨m, hm, hshown⟩ := exists_of_mem_left (shown_reached _ (split_open hdoc)).flip hd
      refine ⟨m, ?_, hgone m hshown⟩
      rw [← Edit.filter_reachedNodes]
      exact List.mem_filter.mpr ⟨hm, by rw [← hshown.name]; exact decide_eq_true hname⟩
  · have := span_of_reached d hd
    have := size_close_pos close
    omega

end

/-- **What is left of a tree outside of the cuts**, and without superfluous line breaks. -/
theorem thinned_outside (hf : f.Nested) (hcompact : f.AllTags WrittenTag.Compact) {before behind : List Char}
    (hdoc : doc = before ++ (f.chars ++ behind))
    (hvisible : ∀ span ∈ spans, ∃ n c, At doc n c ∧ isBlank c = false ∧ span.covers n = true)
    (h : Cuts doc spans gone kept f (size before)) (breaks : Nat) :
    f.Thinned widgetNames gone kept ((f.outside spans (size before)).squeezed breaks) := by
  induction f generalizing before behind breaks with
  | nil => exact .nil
  | text t rest ih =>
    have hrest := h.behind_text
    rw [← size_append] at hrest
    rw [Forest.outside, Forest.squeezed, ← size_append]
    exact .text _ _ (@ih hf.2 hcompact (before ++ t) behind (by rw [hdoc]; simp [Forest.chars]) hrest _)
  | comment t rest ih =>
    have hrest := h.behind_comment
    rw [size_comment] at hrest
    rw [Forest.outside, if_neg (h.comment hdoc), Forest.squeezed, size_comment]
    exact .comment _ _ (@ih hf.2 hcompact _ behind (by rw [hdoc]; simp [Forest.chars]) hrest _)
  | single tag gap rest ih =>
    have hrest := h.behind_single
    rw [size_single] at hrest
    have hmore := ih hf.2.2 hcompact.2 (split_single hdoc) hrest
    rw [Forest.outside, size_single]
    by_cases hany : spans.any (·.covers (size before)) = true
    · obtain ⟨name, hin, hgone⟩ := h.gone_single hdoc hany
      rw [if_pos hany]
      exact .goneSingle gap hin hgone (hmore breaks)
    · rw [if_neg hany, Forest.squeezed]
      refine .single _ _ ⟨rfl, (meant_squeezed tag).symm⟩ (fun n hn => ?_) (hmore 0)
      cases hin : tag.nameIn? widgetNames with
      | none => simp [Forest.nodes, hin] at hn
      | some name =>
        simp only [Forest.nodes, hin, List.append_nil, List.mem_singleton] at hn
        rw [hn]
        exact h.kept_single hdoc hany hin
  | paired tag children close rest ihc ih =>
    obtain ⟨-, -, -, hchildren, hmore⟩ := hf
    have hrest := h.behind_paired
    rw [size_paired] at hrest
    have hmore := @ih hmore hcompact.2.2 _ behind (by rw [hdoc]; simp [Forest.chars]) hrest
    rw [Forest.outside, size_paired]
    by_cases hany : spans.any (·.covers (size before)) = true
    · obtain ⟨name, hin, hgone⟩ := h.gone_paired hdoc hany
      rw [if_pos hany]
      exact .gonePaired close hin hgone (hmore breaks)
    have hpos := size_close_pos close
    -- no cut takes the element, and so each keeps clear of both tags
    have hclear := fun span hspan => (h.fair span hspan).1.resolve_left fun htakes => hany
      (List.any_eq_true.mpr ⟨span, hspan, htakes.covers (Nat.le_refl _) (by omega)⟩)
    rw [if_neg hany, Forest.squeezed]
    by_cases htouched : ∃ span ∈ spans, ∃ n c, At doc n c ∧ isBlank c = false ∧
        size before + size tag.text + 1 ≤ n ∧ n < size before + size tag.text + 1 + size children.chars ∧
        span.covers n = true
    · obtain ⟨span, hspan, n, c, hc, hblank, hlo, hhi, hcovers⟩ := htouched
      obtain ⟨hin, hgone⟩ := h.gone_inside hdoc hany hspan hc hblank hlo hhi hcovers
      have hcontent := h.content (fun span hspan => (hclear span hspan).2.2) hin
      rw [size_open] at hcontent ⊢
      exact .inside _ _ ⟨rfl, (meant_squeezed tag).symm⟩ hin hgone (ihc hchildren hcompact.2.1 (split_open hdoc) hcontent 0)
        (hmore 0)
    · have hmisses := fun span hspan => misses_content (hvisible span hspan) (hclear span hspan).1
        (hclear span hspan).2.1 (fun n c hc hblank hlo hhi hcovers =>
          htouched ⟨span, hspan, n, c, hc, hblank, hlo, hhi, hcovers⟩) (by omega) (by omega)
      rw [outside_of_misses hmisses]
      refine .paired _ _ ⟨rfl, (meant_squeezed tag).symm⟩ (alike_squeezed hchildren hcompact.2.1 0) ?_ ?_ (hmore 0)
      · rw [chars_squeezed hchildren hcompact.2.1]
        exact respaced_collapseBreaks 0 children.chars
      · intro n hn
        cases hin : tag.nameIn? widgetNames with
        | none =>
          have hcontent := h.content (fun span hspan => (hclear span hspan).2.2) hin
          rw [size_open] at hcontent hmisses
          simp only [Forest.nodes, hin, List.append_nil] at hn
          exact kept_of_misses (split_open hdoc) hmisses hcontent.kept n hn
        | some name =>
          simp only [Forest.nodes, hin, List.append_nil, List.mem_singleton] at hn
          rw [hn]
          exact h.kept_paired hdoc hany hin

end Markup

namespace Edit

/-! ## What a removal leaves -/

section

variable {f : Forest} {found : List Element} {gone kept : Node → Prop} (hf : f.WellFormed)
  (h : Chosen f widgetNames found) (hgone : ∀ d ∈ found, ∀ n : Node, n.Shown f.chars d → gone n)
  (hkept : ∀ e ∈ f.reached (searchedNames widgetNames) 0, e.name ∈ widgetNames → e.spared found = true →
    ∀ n : Node, n.Shown f.chars e → kept n)

include hf h hgone hkept

/-- The cuts of a removal take out the widgets that are removed, and white space. -/
theorem cuts_cuttings : Cuts f.chars (cuttings f.chars found) gone kept f 0 where
  fair := fair_cuttings h
  taken span hspan n c hc hblank _ _ hcovers := by
    obtain ⟨d, hd, rfl⟩ := List.mem_map.mp hspan
    obtain ⟨limit, hstands⟩ := h.settled.stands d hd
    have hgrown := grown_cutting hstands
    rw [hgrown.covers n c hc hblank, Span.covers_iff] at hcovers
    exact ⟨d, h.reached d hd, h.settled.named d hd, hgrown.takes ⟨Nat.le_refl _, Nat.le_refl _⟩, hcovers.1,
      hcovers.2, hgone d hd⟩
  kept e he hname hleft := by
    have hsettled := settled_of_walk (Span.fits_whole f.chars) (walk_wellFormed searchable_of_mem_widgetNames hf)
    obtain ⟨limit, hstands⟩ := hsettled.stands e he
    rw [isLeft_cuttings h he hstands.at_start] at hleft
    exact hkept e he hname hleft

/-- **What a removal of widgets leaves of a tree**: those that it removes are gone, and every other one that the walk
reaches is kept as it was but for superfluous line breaks. -/
theorem thinned_remaining (hcompact : f.AllTags WrittenTag.Compact) :
    f.Thinned widgetNames gone kept (remaining f found) := by
  have hcuts := cuts_cuttings hf h hgone hkept
  have hdoc : f.chars = [] ++ (f.chars ++ []) := by simp
  unfold remaining
  split
  · next hnil =>
    rw [hnil] at hcuts
    exact (Forest.Alike.refl f).thinned (kept_of_misses hdoc (fun span hspan => absurd hspan List.not_mem_nil) hcuts.kept)
  · refine thinned_outside hf.nested hcompact hdoc (fun span hspan => ?_) hcuts 0
    obtain ⟨d, hd, rfl⟩ := List.mem_map.mp hspan
    obtain ⟨limit, hstands⟩ := h.settled.stands d hd
    refine ⟨d.start, '<', hstands.at_start, rfl, ?_⟩
    rw [(grown_cutting hstands).covers _ _ hstands.at_start rfl, Span.covers_iff]
    exact ⟨Nat.le_refl _, hstands.start_lt_stop⟩

end

end Edit

end DashboardMarkup
