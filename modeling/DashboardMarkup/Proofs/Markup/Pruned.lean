import DashboardMarkup.Proofs.Edit.Removal

/-!
# Trees without some of their elements

What stands outside some spans of a tree is a tree again, if each span takes an element as a whole or keeps clear of
its tags. The tree that is left has the elements that are not taken, in the order in which they were, and nothing
else: no tag comes about where two texts meet.

* `Forest.Fair`: a span that cuts through no tag and no comment of a tree.
* `fair_reached`: the span of an element of a tree is one.
* `Forest.Fair.grow`: so is a span that is longer by white space.
* `chars_outside`, `wellFormed_outside`, `reached_outside`: the tree that is left, and its elements.
-/

namespace DashboardMarkup

open Text

/-! ## Spans and ranges of offsets -/

/-- A span takes a range of offsets as a whole. -/
def Span.Takes (span : Span) (start stop : Nat) : Prop :=
  span.start ≤ start ∧ stop ≤ span.stop

/-- A span keeps clear of a range of offsets. -/
def Span.Misses (span : Span) (start stop : Nat) : Prop :=
  stop ≤ span.start ∨ span.stop ≤ start

namespace Span

variable {span span' : Span} {start stop n : Nat}

theorem Takes.covers (h : span.Takes start stop) (hlo : start ≤ n) (hhi : n < stop) : span.covers n = true := by
  obtain ⟨hstart, hstop⟩ := h
  rw [covers_iff]
  omega

theorem Misses.not_covers (h : span.Misses start stop) (hlo : start ≤ n) (hhi : n < stop) :
    span.covers n = false := by
  rw [← Bool.not_eq_true, covers_iff]
  rcases h with h | h <;> omega

end Span

namespace Markup

namespace Forest

/-- **A span that cuts through no tag and no comment of a tree**: it takes an element as a whole, or keeps clear of
its tags and does so with its content. -/
def Fair (span : Span) : Nat → Forest → Prop
  | _, nil => True
  | offset, text t rest => rest.Fair span (offset + size t)
  | offset, comment t rest =>
    let stop := offset + 4 + size t + 3
    (span.Takes offset stop ∨ span.Misses offset stop) ∧ rest.Fair span stop
  | offset, single tag gap rest =>
    let stop := offset + size tag.text + 1 + size gap + 1
    (span.Takes offset stop ∨ span.Misses offset stop) ∧ rest.Fair span stop
  | offset, paired tag children close rest =>
    let openEnd := offset + size tag.text + 1
    let closeStart := openEnd + size children.chars
    let stop := closeStart + size close.text
    (span.Takes offset stop ∨
      (span.Misses offset openEnd ∧ span.Misses closeStart stop ∧ children.Fair span openEnd)) ∧
      rest.Fair span stop

/-- What is left of a tree outside some spans. -/
def outside (spans : List Span) : Nat → Forest → Forest
  | _, nil => nil
  | offset, text t rest => text (Text.outside spans offset t) (rest.outside spans (offset + size t))
  | offset, comment t rest =>
    let more := rest.outside spans (offset + 4 + size t + 3)
    if spans.any (·.covers offset) then more else comment t more
  | offset, single tag gap rest =>
    let more := rest.outside spans (offset + size tag.text + 1 + size gap + 1)
    if spans.any (·.covers offset) then more else single tag gap more
  | offset, paired tag children close rest =>
    let openEnd := offset + size tag.text + 1
    let more := rest.outside spans (openEnd + size children.chars + size close.text)
    if spans.any (·.covers offset) then more else paired tag (children.outside spans openEnd) close more

end Forest

variable {names : List String} {span span' : Span} {spans : List Span}

theorem size_close_pos (close : WrittenClose) : 0 < size close.text := by
  have hlt : ('<').utf8Size = 1 := rfl
  rw [WrittenClose.text, size_cons, hlt]
  omega

/-! ## The pieces of trees and their sizes -/

theorem chars_comment (t : List Char) (rest : Forest) :
    (Forest.comment t rest).chars = ("<!--".toList ++ (t ++ "-->".toList)) ++ rest.chars := by
  simp [Forest.chars]

theorem size_commentPiece (t : List Char) : size ("<!--".toList ++ (t ++ "-->".toList)) = 4 + size t + 3 := by
  have hopen : size "<!--".toList = 4 := rfl
  have hclose : size "-->".toList = 3 := rfl
  simp only [size_append, hopen, hclose]
  omega

theorem size_singlePiece (tag : WrittenTag) (gap : List Char) :
    size (tag.text ++ ('/' :: gap ++ ['>'])) = size tag.text + 1 + size gap + 1 := by
  have hgt : ('>').utf8Size = 1 := rfl
  have hslash : ('/').utf8Size = 1 := rfl
  simp only [size_append, size_cons, size_nil, hslash, hgt]
  omega

theorem size_openPiece (tag : WrittenTag) : size (tag.text ++ ['>']) = size tag.text + 1 := by
  have hgt : ('>').utf8Size = 1 := rfl
  simp only [size_append, size_cons, size_nil, hgt]

theorem size_chars_comment (t : List Char) (rest : Forest) :
    size (Forest.comment t rest).chars = 4 + size t + 3 + size rest.chars := by
  rw [chars_comment, size_append, size_commentPiece]

theorem size_chars_single (tag : WrittenTag) (gap : List Char) (rest : Forest) :
    size (Forest.single tag gap rest).chars = size tag.text + 1 + size gap + 1 + size rest.chars := by
  rw [chars_single, size_append, size_singlePiece]

theorem size_chars_paired (tag : WrittenTag) (children : Forest) (close : WrittenClose) (rest : Forest) :
    size (Forest.paired tag children close rest).chars =
      size tag.text + 1 + size children.chars + size close.text + size rest.chars := by
  rw [chars_paired, size_append, size_openPiece, size_append, size_append]
  omega

/-! ## Spans of elements -/

/-- A span that keeps clear of a tree cuts through nothing in it. -/
theorem fair_of_misses {f : Forest} {offset : Nat} (h : span.Misses offset (offset + size f.chars)) :
    f.Fair span offset := by
  unfold Span.Misses at h
  induction f generalizing offset with
  | nil => trivial
  | text t more ih =>
    refine ih ?_
    rw [Forest.chars, size_append] at h
    omega
  | comment t more ih =>
    rw [size_chars_comment] at h
    exact ⟨.inr (by unfold Span.Misses; omega), ih (by omega)⟩
  | single tag gap more ih =>
    rw [size_chars_single] at h
    exact ⟨.inr (by unfold Span.Misses; omega), ih (by omega)⟩
  | paired tag children close more ihc ih =>
    rw [size_chars_paired] at h
    refine ⟨.inr ⟨?_, ?_, ihc (by omega)⟩, ih (by omega)⟩
    · unfold Span.Misses
      omega
    · unfold Span.Misses
      omega

/-- An element of a tree lies in it. -/
theorem span_of_reached {f : Forest} {offset : Nat} :
    ∀ e ∈ f.reached names offset, offset ≤ e.start ∧ e.start < e.stop ∧ e.stop ≤ offset + size f.chars := by
  induction f generalizing offset with
  | nil => simp [Forest.reached]
  | text t more ih =>
    intro e he
    have := ih e he
    simp only [Forest.chars, size_append]
    omega
  | comment t more ih =>
    intro e he
    have := ih e he
    rw [size_chars_comment]
    omega
  | single tag gap more ih =>
    intro e he
    rw [size_chars_single]
    rcases List.mem_append.mp he with he | he
    · obtain ⟨name, -, rfl⟩ := List.mem_map.mp he
      simp only [Element.stop]
      omega
    · have := ih e he
      omega
  | paired tag children close more ihc ih =>
    intro e he
    rw [size_chars_paired]
    rcases List.mem_append.mp he with he | he
    · obtain ⟨name, -, rfl⟩ := List.mem_map.mp he
      simp only [Element.stop]
      omega
    · rcases List.mem_append.mp he with he | he
      · split at he
        · have := ihc e he
          omega
        · exact absurd he List.not_mem_nil
      · have := ih e he
        omega

/-- **An element of a tree is taken without cutting through another one.** -/
theorem fair_reached {f : Forest} {offset : Nat} : ∀ e ∈ f.reached names offset, f.Fair e.span offset := by
  induction f generalizing offset with
  | nil => simp [Forest.reached]
  | text t more ih => exact fun e he => ih e he
  | comment t more ih =>
    intro e he
    have := @span_of_reached names more _ e he
    exact ⟨.inr (.inl (by simp only [Element.span]; omega)), ih e he⟩
  | single tag gap more ih =>
    intro e he
    rcases List.mem_append.mp he with he | he
    · obtain ⟨name, -, rfl⟩ := List.mem_map.mp he
      exact ⟨.inl ⟨Nat.le_refl _, Nat.le_refl _⟩, fair_of_misses (.inr (Nat.le_refl _))⟩
    · have := span_of_reached e he
      exact ⟨.inr (.inl (by simp only [Element.span]; omega)), ih e he⟩
  | paired tag children close more ihc ih =>
    intro e he
    rcases List.mem_append.mp he with he | he
    · obtain ⟨name, -, rfl⟩ := List.mem_map.mp he
      exact ⟨.inl ⟨Nat.le_refl _, Nat.le_refl _⟩, fair_of_misses (.inr (Nat.le_refl _))⟩
    · rcases List.mem_append.mp he with he | he
      · split at he
        · have := span_of_reached e he
          refine ⟨.inr ⟨.inl ?_, .inr ?_, ihc e he⟩, fair_of_misses (.inr ?_)⟩
          all_goals simp only [Element.span]; omega
        · exact absurd he List.not_mem_nil
      · have := span_of_reached e he
        have hsize := size_close_pos close
        refine ⟨.inr ⟨.inl ?_, .inl ?_, fair_of_misses (.inl ?_)⟩, ih e he⟩
        all_goals simp only [Element.span]; omega

/-- A span that cuts through nothing takes an element whose front it covers. -/
theorem takes_of_covers {f : Forest} {offset : Nat} (hfair : f.Fair span offset) :
    ∀ e ∈ f.reached names offset, span.covers e.start = true → span.Takes e.start e.stop := by
  have hmissed : ∀ {start stop : Nat}, span.Misses start stop → start < stop → ¬span.covers start = true := by
    intro start stop hmisses hlt hcovers
    rw [hmisses.not_covers (Nat.le_refl start) hlt] at hcovers
    exact absurd hcovers (by simp)
  induction f generalizing offset with
  | nil => simp [Forest.reached]
  | text t more ih => exact fun e he => ih hfair e he
  | comment t more ih => exact fun e he => ih hfair.2 e he
  | single tag gap more ih =>
    intro e he hcovers
    rcases List.mem_append.mp he with he | he
    · obtain ⟨name, -, rfl⟩ := List.mem_map.mp he
      exact hfair.1.resolve_right fun hmisses => hmissed hmisses (by omega) hcovers
    · exact ih hfair.2 e he hcovers
  | paired tag children close more ihc ih =>
    intro e he hcovers
    rcases List.mem_append.mp he with he | he
    · obtain ⟨name, -, rfl⟩ := List.mem_map.mp he
      exact hfair.1.resolve_right fun hclear => hmissed hclear.1 (by omega) hcovers
    · rcases List.mem_append.mp he with he | he
      · split at he
        · rcases hfair.1 with ⟨hstart, hstop⟩ | ⟨-, -, hchildren⟩
          · have := span_of_reached e he
            unfold Span.Takes
            omega
          · exact ihc hchildren e he hcovers
        · exact absurd he List.not_mem_nil
      · exact ih hfair.2 e he hcovers

/-! ## Longer spans -/

/-- **A span that is longer than another one by white space of a document.** -/
structure Grown (doc : List Char) (span span' : Span) : Prop where
  nonempty : span.start < span.stop
  start_le : span'.start ≤ span.start
  le_stop : span.stop ≤ span'.stop
  covers : ∀ n c, At doc n c → isBlank c = false → span'.covers n = span.covers n

/-- It takes what the shorter one takes. -/
theorem Grown.takes {doc : List Char} (h : Grown doc span span') {start stop : Nat} (htakes : span.Takes start stop) :
    span'.Takes start stop :=
  ⟨Nat.le_trans h.start_le htakes.1, Nat.le_trans htakes.2 h.le_stop⟩

/-- It keeps clear of the tags that the shorter one keeps clear of, since they begin and end with no blank. -/
theorem Grown.misses {doc : List Char} (h : Grown doc span span') {front part : List Char}
    (hdoc : ∃ rest, doc = front ++ ('<' :: (part ++ ['>']) ++ rest))
    (hmisses : span.Misses (size front) (size (front ++ '<' :: (part ++ ['>'])))) :
    span'.Misses (size front) (size (front ++ '<' :: (part ++ ['>']))) := by
  obtain ⟨rest, hdoc⟩ := hdoc
  have hlt : ('<').utf8Size = 1 := rfl
  have hgt : ('>').utf8Size = 1 := rfl
  have hsize : size (front ++ '<' :: (part ++ ['>'])) = size front + size part + 2 := by
    simp only [size_append, size_cons, size_nil, hlt, hgt]
    omega
  rw [hsize] at hmisses ⊢
  have hfirst : At doc (size front) '<' := ⟨front, part ++ '>' :: rest, by simp [hdoc], rfl⟩
  have hlast : At doc (size front + size part + 1) '>' :=
    ⟨front ++ '<' :: part, rest, by simp [hdoc], by simp only [size_append, size_cons, hlt]; omega⟩
  have hfirst := h.covers _ _ hfirst rfl
  have hlast := h.covers _ _ hlast rfl
  rw [hmisses.not_covers (Nat.le_refl _) (by omega), ← Bool.not_eq_true, Span.covers_iff] at hfirst
  rw [hmisses.not_covers (by omega) (by omega), ← Bool.not_eq_true, Span.covers_iff] at hlast
  obtain ⟨hnonempty, hstart, hstop, -⟩ := h
  unfold Span.Misses at hmisses ⊢
  omega

/-- A tag or a comment as a whole. -/
theorem Grown.takes_or_misses {doc : List Char} (h : Grown doc span span') {front part : List Char}
    (hdoc : ∃ rest, doc = front ++ ('<' :: (part ++ ['>']) ++ rest))
    (hfair : span.Takes (size front) (size (front ++ '<' :: (part ++ ['>']))) ∨
      span.Misses (size front) (size (front ++ '<' :: (part ++ ['>'])))) :
    span'.Takes (size front) (size (front ++ '<' :: (part ++ ['>']))) ∨
      span'.Misses (size front) (size (front ++ '<' :: (part ++ ['>']))) :=
  hfair.imp h.takes (h.misses hdoc)

theorem comment_eq (t : List Char) :
    "<!--".toList ++ (t ++ "-->".toList) = '<' :: (("!--".toList ++ (t ++ "--".toList)) ++ ['>']) := by
  simp

theorem single_eq (tag : WrittenTag) (gap : List Char) :
    tag.text ++ ('/' :: gap ++ ['>']) = '<' :: ((tag.name ++ (tag.body ++ '/' :: gap)) ++ ['>']) := by
  simp [WrittenTag.text]

theorem open_eq (tag : WrittenTag) : tag.text ++ ['>'] = '<' :: ((tag.name ++ tag.body) ++ ['>']) := by
  simp [WrittenTag.text]

theorem close_eq (close : WrittenClose) : close.text = '<' :: (('/' :: (close.name ++ close.gap)) ++ ['>']) := by
  simp [WrittenClose.text]

/-- **A span that is longer by white space cuts through no more** than the shorter one. -/
theorem Forest.Fair.grow {doc : List Char} (hgrown : Grown doc span span') {f : Forest} {before behind : List Char}
    (hdoc : doc = before ++ (f.chars ++ behind)) (h : f.Fair span (size before)) : f.Fair span' (size before) := by
  induction f generalizing before behind with
  | nil => trivial
  | text t more ih =>
    rw [Forest.Fair, ← size_append] at h ⊢
    exact @ih _ behind (by rw [hdoc]; simp [Forest.chars]) h
  | comment t more ih =>
    rw [Forest.Fair, size_comment] at h ⊢
    refine ⟨?_, @ih _ behind (by rw [hdoc]; simp [Forest.chars]) h.2⟩
    rw [comment_eq] at h ⊢
    exact hgrown.takes_or_misses ⟨more.chars ++ behind, by rw [hdoc]; simp [Forest.chars]⟩ h.1
  | single tag gap more ih =>
    rw [Forest.Fair, size_single] at h ⊢
    refine ⟨?_, @ih _ behind (by rw [hdoc]; simp [Forest.chars]) h.2⟩
    rw [single_eq] at h ⊢
    exact hgrown.takes_or_misses ⟨more.chars ++ behind, by rw [hdoc, chars_single, single_eq]; simp⟩ h.1
  | paired tag children close more ihc ih =>
    rw [Forest.Fair, size_paired, size_open] at h ⊢
    refine ⟨h.1.imp hgrown.takes ?_, @ih _ behind (by rw [hdoc]; simp [Forest.chars]) h.2⟩
    rintro ⟨hopen, hclose, hchildren⟩
    refine ⟨?_, ?_, ?_⟩
    · rw [open_eq] at hopen ⊢
      refine hgrown.misses ⟨children.chars ++ (close.text ++ (more.chars ++ behind)), ?_⟩ hopen
      rw [hdoc, chars_paired, open_eq]
      simp
    · have hsplit : before ++ (tag.text ++ ['>'] ++ (children.chars ++ close.text)) =
          (before ++ (tag.text ++ ['>'] ++ children.chars)) ++ close.text := by
        simp
      rw [← size_append, List.append_assoc, hsplit, close_eq] at hclose ⊢
      refine hgrown.misses ⟨more.chars ++ behind, ?_⟩ hclose
      rw [hdoc, chars_paired, ← close_eq]
      simp
    · exact @ihc _ (close.text ++ (more.chars ++ behind)) (by rw [hdoc]; simp [Forest.chars]) hchildren

/-! ## What is left -/

/-- A piece that each of some spans takes or keeps clear of is left as a whole or not at all. -/
theorem outside_piece {offset stop : Nat} {piece : List Char} (hsize : offset + size piece = stop)
    (hlt : offset < stop) (h : ∀ span ∈ spans, span.Takes offset stop ∨ span.Misses offset stop) :
    Text.outside spans offset piece = if spans.any (·.covers offset) then [] else piece := by
  split
  · next hany =>
    obtain ⟨span, hspan, hcovers⟩ := List.any_eq_true.mp hany
    rcases h span hspan with htakes | hmisses
    · exact outside_eq_nil fun n hlo hhi => ⟨span, hspan, htakes.covers hlo (hsize ▸ hhi)⟩
    · rw [hmisses.not_covers (Nat.le_refl _) hlt] at hcovers
      exact absurd hcovers (by simp)
  · next hnone =>
    refine outside_eq_self fun n hlo hhi span hspan => ?_
    rcases h span hspan with htakes | hmisses
    · exact absurd (List.any_eq_true.mpr ⟨span, hspan, htakes.covers (Nat.le_refl _) hlt⟩) hnone
    · exact hmisses.not_covers hlo (hsize ▸ hhi)

/-- **The tree that is left is written as what stands outside the spans.** -/
theorem chars_outside {f : Forest} {offset : Nat} (hfair : ∀ span ∈ spans, f.Fair span offset) :
    (f.outside spans offset).chars = Text.outside spans offset f.chars := by
  induction f generalizing offset with
  | nil => rfl
  | text t more ih => rw [Forest.outside, Forest.chars, Forest.chars, outside_append, ih hfair]
  | comment t more ih =>
    have hsize : offset + size ("<!--".toList ++ (t ++ "-->".toList)) = offset + 4 + size t + 3 := by
      rw [size_commentPiece]
      omega
    have hpiece := outside_piece hsize (by omega) fun span hspan => (hfair span hspan).1
    rw [chars_comment, outside_append, hpiece, hsize, ← ih fun span hspan => (hfair span hspan).2, Forest.outside]
    split
    · rfl
    · exact chars_comment t _
  | single tag gap more ih =>
    have hsize : offset + size (tag.text ++ ('/' :: gap ++ ['>'])) =
        offset + size tag.text + 1 + size gap + 1 := by
      rw [size_singlePiece]
      omega
    have hpiece := outside_piece hsize (by omega) fun span hspan => (hfair span hspan).1
    rw [chars_single, outside_append, hpiece, hsize, ← ih fun span hspan => (hfair span hspan).2, Forest.outside]
    split
    · rfl
    · exact chars_single tag gap _
  | paired tag children close more ihc ih =>
    have hopen : offset + size (tag.text ++ ['>']) = offset + size tag.text + 1 := by
      rw [size_openPiece]
      omega
    have hrest := ih fun span hspan => (hfair span hspan).2
    have hsplit : (Forest.paired tag children close more).chars =
        ((tag.text ++ ['>']) ++ (children.chars ++ close.text)) ++ more.chars := by
      rw [chars_paired]
      simp
    have hstop : offset + size ((tag.text ++ ['>']) ++ (children.chars ++ close.text)) =
        offset + size tag.text + 1 + size children.chars + size close.text := by
      rw [size_append, ← Nat.add_assoc, hopen, size_append]
      omega
    rw [Forest.outside, hsplit, outside_append, hstop, ← hrest]
    split
    · next hany =>
      obtain ⟨span, hspan, hcovers⟩ := List.any_eq_true.mp hany
      have htakes := (hfair span hspan).1.resolve_right fun hclear => by
        rw [hclear.1.not_covers (Nat.le_refl _) (by omega)] at hcovers
        exact absurd hcovers (by simp)
      rw [outside_eq_nil fun n hlo hhi => ⟨span, hspan, htakes.covers hlo (hstop ▸ hhi)⟩]
      rfl
    · next hnone =>
      -- no span takes the element, and so each keeps clear of both tags
      have hclear := fun span hspan => (hfair span hspan).1.resolve_left fun htakes => hnone
        (List.any_eq_true.mpr ⟨span, hspan, htakes.covers (Nat.le_refl _) (by have := size_close_pos close; omega)⟩)
      rw [outside_append spans _ (tag.text ++ ['>']), hopen, outside_append spans _ children.chars,
        ← ihc fun span hspan => (hclear span hspan).2.2,
        outside_eq_self fun n hlo hhi span hspan => (hclear span hspan).1.not_covers hlo (hopen ▸ hhi),
        outside_eq_self fun n hlo hhi span hspan => (hclear span hspan).2.1.not_covers hlo hhi, chars_paired]
      simp

theorem mem_of_mem_outside {offset : Nat} {t : List Char} {c : Char} (h : c ∈ Text.outside spans offset t) :
    c ∈ t := by
  have hless : (Text.outside spans offset t).Sublist (Text.outside [] offset t) := outside_sublist (by simp)
  rw [outside_nil] at hless
  exact hless.mem h

/-- Tags that are left are as they were. -/
theorem allTags_outside {p : WrittenTag → Prop} {f : Forest} {offset : Nat} (h : f.AllTags p) :
    (f.outside spans offset).AllTags p := by
  induction f generalizing offset with
  | nil => trivial
  | text t more ih => exact ih h
  | comment t more ih =>
    rw [Forest.outside]
    split
    · exact ih h
    · exact @ih _ h
  | single tag gap more ih =>
    rw [Forest.outside]
    split
    · exact ih h.2
    · exact ⟨h.1, ih h.2⟩
  | paired tag children close more ihc ih =>
    rw [Forest.outside]
    split
    · exact ih h.2.2
    · exact ⟨h.1, ihc h.2.1, ih h.2.2⟩

theorem nested_outside {f : Forest} {offset : Nat} (h : f.Nested) : (f.outside spans offset).Nested := by
  induction f generalizing offset with
  | nil => trivial
  | text t more ih => exact ⟨fun hmem => h.1 (mem_of_mem_outside hmem), ih h.2⟩
  | comment t more ih =>
    rw [Forest.outside]
    split
    · exact ih h.2
    · exact ⟨h.1, ih h.2⟩
  | single tag gap more ih =>
    rw [Forest.outside]
    split
    · exact ih h.2.2
    · exact ⟨h.1, h.2.1, ih h.2.2⟩
  | paired tag children close more ihc ih =>
    obtain ⟨htag, hclose, hsame, hchildren, hmore⟩ := h
    rw [Forest.outside]
    split
    · exact ih hmore
    · exact ⟨htag, hclose, hsame, ihc hchildren, ih hmore⟩

/-- **What is left of a well-formed tree is well-formed.** -/
theorem wellFormed_outside {f : Forest} {offset : Nat} (h : f.WellFormed) :
    (f.outside spans offset).WellFormed :=
  ⟨nested_outside h.nested, allTags_outside h.plain⟩

/-! ## The elements that are left -/

/-- Two elements say the same: their names and attributes are the same, and so are the kinds of their tags. -/
structure Element.SaysAs (e e' : Element) : Prop where
  name : e'.name = e.name
  attrs : e'.attrs = e.attrs
  selfClosing : e'.selfClosing = e.selfClosing
  closed : e'.closed = e.closed

/-- Whether no span covers the front of an element. -/
def Element.isLeft (spans : List Span) (e : Element) : Bool :=
  !spans.any (·.covers e.start)

theorem filter_isLeft_of_covered {found : List Element} (h : ∀ e ∈ found, ∃ span ∈ spans, span.covers e.start = true) :
    found.filter (Element.isLeft spans) = [] := by
  refine List.filter_eq_nil_iff.mpr fun e he hleft => ?_
  rw [Element.isLeft, List.any_eq_true.mpr (h e he)] at hleft
  exact absurd hleft (by simp)

/-- An element that is found or not by its own tag. -/
theorem saysAs_own {found : Option String} {element element' : String → Element} {offset : Nat}
    (hnone : ¬spans.any (·.covers offset) = true) (hstart : ∀ name, (element name).start = offset)
    (hspeaks : ∀ name, (element name).SaysAs (element' name)) :
    List.Forall₂ Element.SaysAs ((found.toList.map element).filter (Element.isLeft spans))
      (found.toList.map element') := by
  cases found with
  | none => exact .nil
  | some name =>
    have hleft : (element name).isLeft spans = true := by
      rw [Element.isLeft, hstart name, Bool.not_eq_true', ← Bool.not_eq_true]
      exact hnone
    rw [Option.toList_some, List.map_singleton, List.map_singleton, List.filter_cons_of_pos hleft]
    exact .cons (hspeaks name) .nil

/-- **The elements that no span takes are left**, in their order. -/
theorem reached_outside {f : Forest} {offset : Nat} (hfair : ∀ span ∈ spans, f.Fair span offset) (offset' : Nat) :
    List.Forall₂ Element.SaysAs ((f.reached names offset).filter (Element.isLeft spans))
      ((f.outside spans offset).reached names offset') := by
  induction f generalizing offset offset' with
  | nil => exact .nil
  | text t more ih => exact ih hfair _
  | comment t more ih =>
    have hrest := ih fun span hspan => (hfair span hspan).2
    rw [Forest.outside]
    split
    · exact hrest _
    · exact hrest _
  | single tag gap more ih =>
    have hrest := ih fun span hspan => (hfair span hspan).2
    rw [Forest.outside, Forest.reached, List.filter_append]
    by_cases hany : spans.any (·.covers offset) = true
    · rw [if_pos hany, filter_isLeft_of_covered fun e he => ?_, List.nil_append]
      · exact hrest _
      · obtain ⟨name, -, rfl⟩ := List.mem_map.mp he
        exact List.any_eq_true.mp hany
    · rw [if_neg hany, Forest.reached]
      refine List.rel_append (saysAs_own hany ?_ ?_) (hrest _)
      · exact fun _ => rfl
      · exact fun _ => ⟨rfl, rfl, rfl, rfl⟩
  | paired tag children close more ihc ih =>
    have hrest := ih fun span hspan => (hfair span hspan).2
    have hsize := size_close_pos close
    rw [Forest.outside, Forest.reached, List.filter_append, List.filter_append]
    by_cases hany : spans.any (·.covers offset) = true
    · obtain ⟨span, hspan, hcovers⟩ := List.any_eq_true.mp hany
      have htakes := (hfair span hspan).1.resolve_right fun hclear => by
        rw [hclear.1.not_covers (Nat.le_refl _) (by omega)] at hcovers
        exact absurd hcovers (by simp)
      rw [if_pos hany, filter_isLeft_of_covered fun e he => ?_, filter_isLeft_of_covered fun e he => ?_,
        List.nil_append, List.nil_append]
      · exact hrest _
      · split at he
        · have := span_of_reached e he
          exact ⟨span, hspan, htakes.covers (by omega) (by omega)⟩
        · exact absurd he List.not_mem_nil
      · obtain ⟨name, -, rfl⟩ := List.mem_map.mp he
        exact ⟨span, hspan, hcovers⟩
    · have hclear := fun span hspan => (hfair span hspan).1.resolve_left fun htakes => hany
        (List.any_eq_true.mpr ⟨span, hspan, htakes.covers (Nat.le_refl _) (by omega)⟩)
      rw [if_neg hany, Forest.reached]
      refine List.rel_append (saysAs_own hany ?_ ?_) (List.rel_append ?_ (hrest _))
      · exact fun _ => rfl
      · exact fun _ => ⟨rfl, rfl, rfl, rfl⟩
      · split
        · exact ihc (fun span hspan => (hclear span hspan).2.2) _
        · exact .nil

end Markup

end DashboardMarkup
