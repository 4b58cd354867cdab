import DashboardMarkup.Markup.Bounds
import DashboardMarkup.Proofs.Markup.WrittenTag

/-!
# Documents as trees

`find` never builds a tree. A document that is written as one, from text, comments, self-closing elements and
pairs of tags around their content, is searched as if it did.

* `findClose_forest`: behind the content of an element, the search for its close tag is where it was
  before, whatever is nested there.
* `scan_forest`: a search reports the outermost elements of its names and nothing else, each with its parts
  where they are written, as long as every close tag is found.
* `find_forest`: so it does in every well-formed document.
-/

namespace DashboardMarkup.Markup

open Text

/-- A document as a tree: what stands at its front, and the rest. -/
inductive Forest
  | nil
  | text (chars : List Char) (rest : Forest)
  | comment (chars : List Char) (rest : Forest)
  | single (tag : WrittenTag) (gap : List Char) (rest : Forest)
  | paired (tag : WrittenTag) (children : Forest) (close : WrittenClose) (rest : Forest)
  deriving DecidableEq, Repr

namespace Forest

/-- The text of a document. -/
@[grind =]
def chars : Forest → List Char
  | nil => []
  | text t rest => t ++ rest.chars
  | comment t rest => "<!--".toList ++ (t ++ ("-->".toList ++ rest.chars))
  | single tag gap rest => tag.text ++ ('/' :: gap ++ '>' :: rest.chars)
  | paired tag children close rest =>
    tag.text ++ '>' :: (children.chars ++ (close.text ++ rest.chars))

/-- The parts of a document are what they should be, and tags are paired as they are nested. -/
def Nested : Forest → Prop
  | nil => True
  | text t rest => '<' ∉ t ∧ rest.Nested
  | comment t rest => ¬"-->".toList <:+: t ∧ rest.Nested
  | single tag gap rest => tag.Readable ∧ (∀ c ∈ gap, isTagBlank c = true) ∧ rest.Nested
  | paired tag children close rest =>
    tag.Readable ∧ close.Readable ∧ lower close.name = lower tag.name ∧ children.Nested ∧ rest.Nested

/-- Every open tag of a document satisfies `p`. -/
def AllTags (p : WrittenTag → Prop) : Forest → Prop
  | nil => True
  | text _ rest => rest.AllTags p
  | comment _ rest => rest.AllTags p
  | single tag _ rest => p tag ∧ rest.AllTags p
  | paired tag children _ rest => p tag ∧ children.AllTags p ∧ rest.AllTags p

theorem AllTags.imp {p q : WrittenTag → Prop} (hpq : ∀ t, p t → q t) {f : Forest} (h : f.AllTags p) :
    f.AllTags q := by
  induction f with
  | nil => trivial
  | text _ rest ih => exact ih h
  | comment _ rest ih => exact ih h
  | single tag _ rest ih => exact ⟨hpq tag h.1, ih h.2⟩
  | paired tag children _ rest ihc ih => exact ⟨hpq tag h.1, ihc h.2.1, ih h.2.2⟩

theorem AllTags.and {p q : WrittenTag → Prop} {f : Forest} (hp : f.AllTags p) (hq : f.AllTags q) :
    f.AllTags fun t => p t ∧ q t := by
  induction f with
  | nil => trivial
  | text _ rest ih => exact ih hp hq
  | comment _ rest ih => exact ih hp hq
  | single tag _ rest ih => exact ⟨⟨hp.1, hq.1⟩, ih hp.2 hq.2⟩
  | paired tag children _ rest ihc ih =>
    exact ⟨⟨hp.1, hq.1⟩, ihc hp.2.1 hq.2.1, ih hp.2.2 hq.2.2⟩

/-- Tags of other names than those looked for are plain if all tags are. -/
theorem AllTags.others {f : Forest} (h : f.AllTags WrittenTag.Plain) (names : List String) :
    f.AllTags fun t => t.nameIn? names = none → t.Plain := by
  refine @AllTags.imp _ _ ?_ f h
  exact fun t ht _ => ht

theorem Nested.readable {f : Forest} (h : f.Nested) : f.AllTags WrittenTag.Readable := by
  induction f with
  | nil => trivial
  | text _ rest ih => exact ih h.2
  | comment _ rest ih => exact ih h.2
  | single tag _ rest ih => exact ⟨h.1, ih h.2.2⟩
  | paired tag children _ rest ihc ih =>
    obtain ⟨htag, -, -, hchildren, hrest⟩ := h
    exact ⟨htag, ihc hchildren, ih hrest⟩

/-- Whether a document is nested properly can be computed. -/
instance decidableNested : (f : Forest) → Decidable f.Nested
  | nil => isTrue trivial
  | text _ rest =>
    have := decidableNested rest
    inferInstanceAs (Decidable (_ ∧ _))
  | comment _ rest =>
    have := decidableNested rest
    inferInstanceAs (Decidable (_ ∧ _))
  | single _ _ rest =>
    have := decidableNested rest
    inferInstanceAs (Decidable (_ ∧ _ ∧ _))
  | paired _ children _ rest =>
    have := decidableNested children
    have := decidableNested rest
    inferInstanceAs (Decidable (_ ∧ _ ∧ _ ∧ _ ∧ _))

instance decidableAllTags (p : WrittenTag → Prop) [DecidablePred p] : (f : Forest) → Decidable (f.AllTags p)
  | nil => isTrue trivial
  | text _ rest => decidableAllTags p rest
  | comment _ rest => decidableAllTags p rest
  | single _ _ rest =>
    have := decidableAllTags p rest
    inferInstanceAs (Decidable (_ ∧ _))
  | paired _ children _ rest =>
    have := decidableAllTags p children
    have := decidableAllTags p rest
    inferInstanceAs (Decidable (_ ∧ _ ∧ _))

/-- **A well-formed document**: text without `<`, comments, and elements that are nested properly, with no
`<` in the values of their attributes. -/
structure WellFormed (f : Forest) : Prop where
  nested : f.Nested
  plain : f.AllTags WrittenTag.Plain

instance (f : Forest) : Decidable f.WellFormed :=
  decidable_of_iff (f.Nested ∧ f.AllTags WrittenTag.Plain) ⟨fun h => ⟨h.1, h.2⟩, fun h => ⟨h.1, h.2⟩⟩

/-- The outermost elements of some names in a document that begins at an offset. -/
def outermost (names : List String) : Nat → Forest → List Element
  | _, nil => []
  | offset, text t rest => rest.outermost names (offset + size t)
  | offset, comment t rest => rest.outermost names (offset + 4 + size t + 3)
  | offset, single tag gap rest =>
    let stop := offset + size tag.text + 1 + size gap + 1
    (match tag.nameIn? names with
      | some name => [⟨name, offset, stop, tag.meant, .selfClosing⟩]
      | none => []) ++ rest.outermost names stop
  | offset, paired tag children close rest =>
    let openEnd := offset + size tag.text + 1
    let closeStart := openEnd + size children.chars
    let stop := closeStart + size close.text
    (match tag.nameIn? names with
      | some name => [⟨name, offset, openEnd, tag.meant, .paired ⟨openEnd, closeStart⟩ stop⟩]
      | none => children.outermost names openEnd) ++ rest.outermost names stop

end Forest

/-! ## The parts of a tree and their sizes -/

theorem chars_single (tag : WrittenTag) (gap : List Char) (rest : Forest) :
    (Forest.single tag gap rest).chars = (tag.text ++ ('/' :: gap ++ ['>'])) ++ rest.chars := by
  simp [Forest.chars]

theorem chars_paired (tag : WrittenTag) (children : Forest) (close : WrittenClose) (rest : Forest) :
    (Forest.paired tag children close rest).chars =
      (tag.text ++ ['>']) ++ (children.chars ++ (close.text ++ rest.chars)) := by
  simp [Forest.chars]

theorem size_comment (before t : List Char) :
    size before + 4 + size t + 3 = size (before ++ ("<!--".toList ++ (t ++ "-->".toList))) := by
  have hopen : size "<!--".toList = 4 := rfl
  have hclose : size "-->".toList = 3 := rfl
  simp only [size_append, hopen, hclose]
  omega

theorem size_single (before : List Char) (tag : WrittenTag) (gap : List Char) :
    size before + size tag.text + 1 + size gap + 1 =
      size (before ++ (tag.text ++ ('/' :: gap ++ ['>']))) := by
  have hgt : ('>').utf8Size = 1 := rfl
  have hslash : ('/').utf8Size = 1 := rfl
  simp only [size_append, size_cons, size_nil, hslash, hgt]
  omega

theorem size_open (before : List Char) (tag : WrittenTag) :
    size before + size tag.text + 1 = size (before ++ (tag.text ++ ['>'])) := by
  have hgt : ('>').utf8Size = 1 := rfl
  simp only [size_append, size_cons, size_nil, hgt]
  omega

theorem size_paired (before : List Char) (tag : WrittenTag) (content : List Char) (close : WrittenClose) :
    size before + size tag.text + 1 + size content + size close.text =
      size (before ++ (tag.text ++ ['>'] ++ (content ++ close.text))) := by
  rw [size_open]
  simp only [size_append, size_cons, size_nil]
  omega

/-! ## Comments -/

/-- A comment ends where it is written to end. -/
theorem cut?_comment {t : List Char} (h : ¬"-->".toList <:+: t) (rest : List Char) :
    cut? "-->".toList (t ++ ("-->".toList ++ rest)) = some (t, rest) := by
  have hmark : "-->".toList = ['-', '-', '>'] := rfl
  rw [hmark] at h ⊢
  induction t with
  | nil => rfl
  | cons c t ih =>
    have hnone : stripPrefix? ['-', '-', '>'] (c :: (t ++ (['-', '-', '>'] ++ rest))) = none := by
      rw [← Option.not_isSome_iff_eq_none, Option.isSome_iff_exists]
      rintro ⟨r, hr⟩
      have heq := stripPrefix?_eq_some.mp hr
      match t, heq with
      | [], heq => simp at heq
      | [_], heq => simp at heq
      | d :: e :: t, heq =>
        simp only [List.cons_append, List.cons.injEq, List.nil_append] at heq
        obtain ⟨rfl, rfl, rfl, -⟩ := heq
        exact h ⟨[], t, rfl⟩
    have hrest := ih fun hmem => h (hmem.trans (List.suffix_cons c t).isInfix)
    rw [List.cons_append, cut?, hnone]
    simp only [hrest, Option.map_some]

theorem comment?_comment {t : List Char} (h : ¬"-->".toList <:+: t) (rest : List Char) :
    comment? ("<!--".toList ++ (t ++ ("-->".toList ++ rest))) = some rest := by
  unfold comment?
  rw [stripPrefix?_append, Option.map_some, cut?_comment h]

/-! ## Tags that are passed over -/

/-- A tag without a `<` in its values has no other one than its own. -/
theorem not_mem_body {t : WrittenTag} (h : t.Readable) (hplain : t.Plain) : '<' ∉ t.name ++ t.body := by
  intro hmem
  rcases List.mem_append.mp hmem with hmem | hmem
  · exact absurd (h.name_char '<' hmem) (by decide)
  · rcases List.mem_append.mp hmem with hmem | hmem
    · obtain ⟨a, ha, hmem⟩ := List.mem_flatMap.mp hmem
      have hr := h.attr a ha
      simp only [WrittenAttribute.text, List.mem_append, List.mem_cons, List.not_mem_nil, or_false] at hmem
      rcases hmem with hmem | hmem | hmem | hmem | hmem | hmem | hmem | hmem
      · exact absurd (hr.gap_blank '<' hmem) (by decide)
      · exact (hr.name_char '<' hmem).2 rfl
      · exact absurd (hr.beforeSign_blank '<' hmem) (by decide)
      · exact absurd hmem (by decide)
      · exact absurd (hr.behindSign_blank '<' hmem) (by decide)
      · exact absurd hmem (by decide)
      · exact hplain a ha hmem
      · exact absurd hmem (by decide)
    · exact absurd (h.gap_blank '<' hmem) (by decide)

theorem not_mem_closing {t : WrittenClose} (h : t.Readable) :
    '<' ∉ '/' :: (t.name ++ (t.gap ++ ['>'])) := by
  intro hmem
  simp only [List.mem_append, List.mem_cons, List.not_mem_nil, or_false] at hmem
  rcases hmem with hmem | hmem | hmem | hmem
  · exact absurd hmem (by decide)
  · exact absurd (h.name_char '<' hmem) (by decide)
  · exact absurd (h.gap_blank '<' hmem) (by decide)
  · exact absurd hmem (by decide)

/-- The slash, the blanks and the `>` of a self-closing tag. -/
theorem not_mem_slash {gap : List Char} (hgap : ∀ c ∈ gap, isTagBlank c = true) : '<' ∉ '/' :: gap ++ ['>'] := by
  intro hmem
  simp only [List.mem_append, List.mem_cons, List.not_mem_nil, or_false] at hmem
  rcases hmem with (hmem | hmem) | hmem
  · exact absurd hmem (by decide)
  · exact absurd (hgap '<' hmem) (by decide)
  · exact absurd hmem (by decide)

/-- The search for a close tag of a name passes over a tag, whatever ends and follows it. -/
def WrittenTag.PassedBy (t : WrittenTag) (name : String) : Prop :=
  ∀ limit depth rest, endsName rest = true →
    findClose limit name depth (t.text ++ rest) = findClose limit name depth rest

/-- A tag of another name is passed over, unless there is a `<` in its values. -/
theorem passedBy_of_plain {t : WrittenTag} {name : String} (h : t.Readable) (hplain : t.Plain)
    (hname : Searchable name) (hne : lower t.name ≠ lower name.toList) : t.PassedBy name := by
  intro limit depth rest hrest
  have hnone : t.nameIn? [name] = none := by
    simpa [WrittenTag.nameIn?] using hne
  have hopening := @opening?_tag [name] t h (by simpa using hname) rest hrest
  rw [hnone] at hopening
  have hcomment := comment?_tag h rest
  have hclosing := @closing?_tag name t h rest
  have hsplit : t.text ++ rest = '<' :: ((t.name ++ t.body) ++ rest) := rfl
  rw [hsplit] at hcomment hclosing hopening ⊢
  rw [findClose_skip hcomment hclosing hopening, findClose_append (not_mem_body h hplain)]

/-- So is a close tag of another name. -/
theorem findClose_close_other {limit : Nat} {name : String} {depth : Nat} {t : WrittenClose}
    (h : t.Readable) (hname : Searchable name) (hne : lower t.name ≠ lower name.toList)
    (rest : List Char) :
    findClose limit name depth (t.text ++ rest) = findClose limit name depth rest := by
  have hclosing := closing?_close h hname rest
  rw [if_neg hne] at hclosing
  have hopening := @opening?_close [name] (by simpa using hname) t rest
  have hcomment := comment?_close t rest
  have hsplit : t.text ++ rest = '<' :: (('/' :: (t.name ++ (t.gap ++ ['>']))) ++ rest) := rfl
  rw [hsplit] at hcomment hclosing hopening ⊢
  rw [findClose_skip hcomment hclosing hopening, findClose_append (not_mem_closing h)]

/-- A close tag of the name is the one that is looked for. -/
theorem findClose_close {limit : Nat} {name : String} {t : WrittenClose} (h : t.Readable)
    (hname : Searchable name) (heq : lower t.name = lower name.toList) (rest : List Char) :
    findClose limit name 0 (t.text ++ rest) = .ok (some (t.text ++ rest, rest)) := by
  have hclosing := closing?_close h hname rest
  rw [if_pos heq] at hclosing
  rw [findClose_closing (comment?_close t rest) hclosing, behindTag_close h]

/-- Inside an element of the same name it closes that one. -/
theorem findClose_close_inside {limit : Nat} {name : String} {depth : Nat} {t : WrittenClose}
    (h : t.Readable) (hname : Searchable name) (heq : lower t.name = lower name.toList)
    (rest : List Char) :
    findClose limit name (depth + 1) (t.text ++ rest) = findClose limit name depth rest := by
  have hclosing := closing?_close h hname rest
  rw [if_pos heq] at hclosing
  rw [findClose_closing_inside (comment?_close t rest) hclosing, behindTag_close h]

/-- An open tag of the name opens one more element. -/
theorem findClose_paired {limit : Nat} {name : String} {depth : Nat} {t : WrittenTag} (h : t.Readable)
    (hname : Searchable name) (heq : lower t.name = lower name.toList) (rest : List Char) :
    findClose limit name depth (t.text ++ '>' :: rest) = findClose limit name (depth + 1) rest := by
  have hopening := @opening?_tag [name] t h (by simpa using hname) ('>' :: rest) rfl
  have hsome : t.nameIn? [name] = some name := by
    simp [WrittenTag.nameIn?, heq]
  rw [hsome, Option.map_some] at hopening
  rw [findClose_opening (comment?_tag h _) (closing?_tag h _) hopening (finish?_paired h.delimited rest)]
  rfl

/-- One that closes itself opens none. -/
theorem findClose_single {limit : Nat} {name : String} {depth : Nat} {t : WrittenTag} (h : t.Readable)
    (hname : Searchable name) (heq : lower t.name = lower name.toList) {gap : List Char}
    (hgap : ∀ c ∈ gap, isTagBlank c = true) (rest : List Char) :
    findClose limit name depth (t.text ++ ('/' :: gap ++ '>' :: rest)) =
      findClose limit name depth rest := by
  have hopening := @opening?_tag [name] t h (by simpa using hname) ('/' :: gap ++ '>' :: rest) rfl
  have hsome : t.nameIn? [name] = some name := by
    simp [WrittenTag.nameIn?, heq]
  rw [hsome, Option.map_some] at hopening
  rw [findClose_opening (comment?_tag h _) (closing?_tag h _) hopening (finish?_single h.delimited hgap rest)]
  rfl

/-- **Behind a whole document the search for a close tag is where it was before**, whatever is nested in it,
as long as it passes over each tag of another name. -/
theorem findClose_forest {limit : Nat} {name : String} (hname : Searchable name) {f : Forest}
    (hf : f.Nested) (htags : f.AllTags fun t => lower t.name = lower name.toList ∨ t.PassedBy name)
    (depth : Nat) (rest : List Char) :
    findClose limit name depth (f.chars ++ rest) = findClose limit name depth rest := by
  -- the induction is on the tree; inside an element of the same name the count is one higher
  induction f generalizing depth rest with
  | nil => rfl
  | text t more ih =>
    obtain ⟨hlt, hmore⟩ := hf
    rw [Forest.chars, List.append_assoc, findClose_append hlt]
    exact ih hmore htags depth rest
  | comment t more ih =>
    obtain ⟨hend, hmore⟩ := hf
    have hcomment := comment?_comment hend (more.chars ++ rest)
    have hsplit : (Forest.comment t more).chars ++ rest =
        "<!--".toList ++ (t ++ ("-->".toList ++ (more.chars ++ rest))) := by
      simp [Forest.chars]
    rw [hsplit, findClose_comment hcomment]
    exact ih hmore htags depth rest
  | single tag gap more ih =>
    obtain ⟨htag, hgap, hmore⟩ := hf
    obtain ⟨hone, htags⟩ := htags
    have hsplit : (Forest.single tag gap more).chars ++ rest =
        tag.text ++ ('/' :: gap ++ '>' :: (more.chars ++ rest)) := by
      simp [Forest.chars]
    have hpass : findClose limit name depth (tag.text ++ ('/' :: gap ++ '>' :: (more.chars ++ rest))) =
        findClose limit name depth (more.chars ++ rest) := by
      rcases hone with heq | hpassed
      · exact findClose_single htag hname heq hgap _
      · have hslash : '/' :: gap ++ '>' :: (more.chars ++ rest) =
            ('/' :: gap ++ ['>']) ++ (more.chars ++ rest) := by
          simp
        rw [hpassed _ _ _ rfl, hslash, findClose_append (not_mem_slash hgap)]
    rw [hsplit, hpass]
    exact ih hmore htags depth rest
  | paired tag children close more ihc ih =>
    obtain ⟨htag, hclose, hsame, hchildren, hmore⟩ := hf
    obtain ⟨hone, hinside, htags⟩ := htags
    have hsplit : (Forest.paired tag children close more).chars ++ rest =
        tag.text ++ '>' :: (children.chars ++ (close.text ++ (more.chars ++ rest))) := by
      simp [Forest.chars]
    have hpass : findClose limit name depth
        (tag.text ++ '>' :: (children.chars ++ (close.text ++ (more.chars ++ rest)))) =
          findClose limit name depth (more.chars ++ rest) := by
      by_cases heq : lower tag.name = lower name.toList
      · rw [findClose_paired htag hname heq, ihc hchildren hinside,
          findClose_close_inside hclose hname (hsame.trans heq)]
      · have hgt : '<' ∉ ['>'] := by decide
        have hpassed := hone.resolve_left heq
        rw [hpassed _ _ _ rfl, ← List.singleton_append, findClose_append hgt, ihc hchildren hinside,
          findClose_close_other hclose hname (fun h => heq (hsame.symm.trans h))]
    rw [hsplit, hpass]
    exact ih hmore htags depth rest

/-! ## What a search passes over -/

/-- A tag of none of the names is passed over, unless there is a `<` in its values. -/
theorem scan_tag_other {limit : Nat} {names : List String} {t : WrittenTag} (h : t.Readable)
    (hplain : t.Plain) (hnames : ∀ name ∈ names, Searchable name) (hnone : t.nameIn? names = none)
    {rest : List Char} (hrest : endsName rest = true) :
    scan limit names (t.text ++ rest) = scan limit names rest := by
  have hopening := opening?_tag h hnames hrest
  rw [hnone] at hopening
  have hcomment := comment?_tag h rest
  have hsplit : t.text ++ rest = '<' :: ((t.name ++ t.body) ++ rest) := rfl
  rw [hsplit] at hcomment hopening ⊢
  rw [scan_skip hcomment hopening, scan_append (not_mem_body h hplain)]

/-- A close tag is passed over. -/
theorem scan_close {limit : Nat} {names : List String} {t : WrittenClose} (h : t.Readable)
    (hnames : ∀ name ∈ names, Searchable name) (rest : List Char) :
    scan limit names (t.text ++ rest) = scan limit names rest := by
  have hopening := opening?_close hnames t rest
  have hcomment := comment?_close t rest
  have hsplit : t.text ++ rest = '<' :: (('/' :: (t.name ++ (t.gap ++ ['>']))) ++ rest) := rfl
  rw [hsplit] at hcomment hopening ⊢
  rw [scan_skip hcomment hopening, scan_append (not_mem_closing h)]

/-! ## What a search finds at the front of a tree -/

/-- An element that closes itself is passed over, if its name is none of those looked for. -/
theorem scan_single_other {limit : Nat} {names : List String} (hnames : ∀ name ∈ names, Searchable name)
    {tag : WrittenTag} (htag : tag.Readable) (hplain : tag.Plain) (hin : tag.nameIn? names = none)
    {gap : List Char} (hgap : ∀ c ∈ gap, isTagBlank c = true) (more : Forest) (after : List Char) :
    scan limit names ((Forest.single tag gap more).chars ++ after) =
      scan limit names (more.chars ++ after) := by
  have hsplit : (Forest.single tag gap more).chars ++ after =
      tag.text ++ (('/' :: gap ++ ['>']) ++ (more.chars ++ after)) := by
    simp [Forest.chars]
  rw [hsplit, scan_tag_other htag hplain hnames hin rfl, scan_append (not_mem_slash hgap)]

/-- Otherwise it is reported. -/
theorem scan_single_named {limit : Nat} {names : List String} (hnames : ∀ name ∈ names, Searchable name)
    {tag : WrittenTag} (htag : tag.Readable) {name : String} (hin : tag.nameIn? names = some name)
    {gap : List Char} (hgap : ∀ c ∈ gap, isTagBlank c = true) (more : Forest) (after : List Char) :
    scan limit names ((Forest.single tag gap more).chars ++ after) =
      (scan limit names (more.chars ++ after)).map
        (⟨name, limit - size ((Forest.single tag gap more).chars ++ after),
          limit - size (more.chars ++ after), tag.meant, .selfClosing⟩ :: ·) := by
  have hsplit : (Forest.single tag gap more).chars ++ after =
      tag.text ++ ('/' :: gap ++ '>' :: (more.chars ++ after)) := by
    simp [Forest.chars]
  have hopening := @opening?_tag names tag htag hnames ('/' :: gap ++ '>' :: (more.chars ++ after)) rfl
  rw [hin, Option.map_some] at hopening
  rw [hsplit, scan_single (comment?_tag htag _) hopening (finish?_single htag.delimited hgap _) rfl]

/-- Of an element of no name looked for, the search sees the content. -/
theorem scan_paired_other {limit : Nat} {names : List String} (hnames : ∀ name ∈ names, Searchable name)
    {tag : WrittenTag} (htag : tag.Readable) (hplain : tag.Plain) (hin : tag.nameIn? names = none)
    (children : Forest) (close : WrittenClose) (more : Forest) (after : List Char) :
    scan limit names ((Forest.paired tag children close more).chars ++ after) =
      scan limit names (children.chars ++ (close.text ++ (more.chars ++ after))) := by
  have hlt : '<' ∉ ['>'] := by decide
  have hsplit : (Forest.paired tag children close more).chars ++ after =
      tag.text ++ (['>'] ++ (children.chars ++ (close.text ++ (more.chars ++ after)))) := by
    simp [Forest.chars]
  rw [hsplit, scan_tag_other htag hplain hnames hin rfl, scan_append hlt]

/-- The open tag of an element that is looked for, as the readers see it. -/
theorem opening_paired {names : List String} (hnames : ∀ name ∈ names, Searchable name)
    {tag : WrittenTag} (htag : tag.Readable) {name : String} (hin : tag.nameIn? names = some name)
    (children : Forest) (close : WrittenClose) (more : Forest) (after : List Char) :
    comment? ((Forest.paired tag children close more).chars ++ after) = none ∧
      ∃ tail, opening? names ((Forest.paired tag children close more).chars ++ after) =
          some (name, tail) ∧
        finish? tail =
          some (⟨tag.meant, false⟩, children.chars ++ (close.text ++ (more.chars ++ after))) := by
  have hsplit : (Forest.paired tag children close more).chars ++ after =
      tag.text ++ '>' :: (children.chars ++ (close.text ++ (more.chars ++ after))) := by
    simp [Forest.chars]
  have hopening := @opening?_tag names tag htag hnames
    ('>' :: (children.chars ++ (close.text ++ (more.chars ++ after)))) rfl
  rw [hin, Option.map_some] at hopening
  rw [hsplit]
  exact ⟨comment?_tag htag _, _, hopening, finish?_paired htag.delimited _⟩

/-! ## What a search finds in a tree -/

theorem searchable_of_nameIn? {names : List String} (hnames : ∀ name ∈ names, Searchable name)
    {t : WrittenTag} {name : String} (h : t.nameIn? names = some name) :
    Searchable name ∧ lower t.name = lower name.toList := by
  refine ⟨hnames name (List.mem_of_find?_eq_some h), ?_⟩
  have := @List.find?_some _ (fun name : String => lower t.name == lower name.toList) _ _ h
  exact beq_iff_eq.mp this

/-- In a document that is followed by some text, the close tag of each element of some names is found where
it is written. The search for an outermost one sees all that follows, one inside it only its content. -/
def Forest.Closes (names : List String) : Forest → List Char → Prop
  | nil, _ => True
  | text _ rest, after => rest.Closes names after
  | comment _ rest, after => rest.Closes names after
  | single _ _ rest, after => rest.Closes names after
  | paired tag children close rest, after =>
    (match tag.nameIn? names with
      | some name =>
        (∀ limit, findClose limit name 0 (children.chars ++ (close.text ++ (rest.chars ++ after))) =
          .ok (some (close.text ++ (rest.chars ++ after), rest.chars ++ after))) ∧
        children.Closes names []
      | none => children.Closes names (close.text ++ (rest.chars ++ after))) ∧
    rest.Closes names after

/-- **A search reports the outermost elements and goes on behind the document**, as long as it finds each
close tag, and each `<` in a value is in a tag that it looks for. -/
theorem scan_forest {limit : Nat} {names : List String} (hnames : ∀ name ∈ names, Searchable name)
    {f : Forest} (hf : f.Nested) (htags : f.AllTags fun t => t.nameIn? names = none → t.Plain)
    {after : List Char} (hcloses : f.Closes names after) {offset : Nat}
    (hoffset : offset + size (f.chars ++ after) = limit) :
    scan limit names (f.chars ++ after) =
      (scan limit names after).map (f.outermost names offset ++ ·) := by
  induction f generalizing after offset with
  | nil =>
    simp only [Forest.chars, Forest.outermost, List.nil_append]
    cases scan limit names after <;> rfl
  | text t more ih =>
    obtain ⟨hlt, hmore⟩ := hf
    rw [Forest.chars, List.append_assoc, size_append] at hoffset
    rw [Forest.chars, Forest.outermost, List.append_assoc, scan_append hlt]
    exact ih hmore htags hcloses (by omega)
  | comment t more ih =>
    obtain ⟨hend, hmore⟩ := hf
    have hopen : size "<!--".toList = 4 := rfl
    have hclose : size "-->".toList = 3 := rfl
    have hcomment := comment?_comment hend (more.chars ++ after)
    have hsplit : (Forest.comment t more).chars ++ after =
        "<!--".toList ++ (t ++ ("-->".toList ++ (more.chars ++ after))) := by
      simp [Forest.chars]
    rw [hsplit, size_append, size_append, size_append, hopen, hclose] at hoffset
    rw [hsplit, scan_comment hcomment, Forest.outermost]
    exact ih hmore htags hcloses (by omega)
  | single tag gap more ih =>
    obtain ⟨htag, hgap, hmore⟩ := hf
    obtain ⟨hone, htags⟩ := htags
    have hslash : ('/').utf8Size = 1 := rfl
    have hgt : ('>').utf8Size = 1 := rfl
    have hsize : offset + (size tag.text + (1 + size gap + (1 + size (more.chars ++ after)))) = limit := by
      rw [← hoffset]
      simp only [Forest.chars, size_append, size_cons, hslash, hgt]
      omega
    have hrest := @ih hmore htags after hcloses (offset + size tag.text + 1 + size gap + 1) (by omega)
    rw [Forest.outermost]
    cases hin : tag.nameIn? names with
    | none =>
      rw [scan_single_other hnames htag (hone hin) hin hgap, hrest]
      rfl
    | some name =>
      have hstart : limit - size ((Forest.single tag gap more).chars ++ after) = offset := by omega
      have hstop : limit - size (more.chars ++ after) = offset + size tag.text + 1 + size gap + 1 := by
        omega
      rw [scan_single_named hnames htag hin hgap, hrest, hstart, hstop]
      cases scan limit names after <;> rfl
  | paired tag children close more ihc ih =>
    obtain ⟨htag, hclose, hsame, hchildren, hmore⟩ := hf
    obtain ⟨hone, hinside, htags⟩ := htags
    obtain ⟨hfound, hcloses⟩ := hcloses
    have hgt : ('>').utf8Size = 1 := rfl
    have hsize : offset + (size tag.text + (1 + (size children.chars + (size close.text +
        size (more.chars ++ after))))) = limit := by
      rw [← hoffset]
      simp only [Forest.chars, size_append, size_cons, hgt]
      omega
    have hrest := @ih hmore htags after hcloses
      (offset + size tag.text + 1 + size children.chars + size close.text) (by omega)
    rw [Forest.outermost]
    cases hin : tag.nameIn? names with
    | none =>
      rw [hin] at hfound
      have hcontent := @ihc hchildren hinside (close.text ++ (more.chars ++ after)) hfound
        (offset + size tag.text + 1) (by simp only [size_append] at hsize ⊢; omega)
      rw [scan_paired_other hnames htag (hone hin) hin, hcontent, scan_close hclose hnames, hrest]
      cases scan limit names after with
      | error fault => rfl
      | ok found => simp [Except.map]
    | some name =>
      rw [hin] at hfound
      obtain ⟨hcomment, tail, hopening, hfinish⟩ :=
        opening_paired hnames htag hin children close more after
      have hstart : limit - size ((Forest.paired tag children close more).chars ++ after) = offset := by
        omega
      have hopen : limit - size (children.chars ++ (close.text ++ (more.chars ++ after))) =
          offset + size tag.text + 1 := by
        simp only [size_append] at hsize ⊢
        omega
      have hend : limit - size (close.text ++ (more.chars ++ after)) =
          offset + size tag.text + 1 + size children.chars := by
        simp only [size_append] at hsize ⊢
        omega
      have hstop : limit - size (more.chars ++ after) =
          offset + size tag.text + 1 + size children.chars + size close.text := by
        omega
      rw [scan_paired hcomment hopening hfinish rfl (hfound.1 limit), hrest, hstart, hopen, hend, hstop]
      cases scan limit names after <;> rfl

/-- Every close tag is found where the search for it passes over each tag of another name. -/
theorem closes_of_passed {names : List String} (hnames : ∀ name ∈ names, Searchable name) {f : Forest}
    (hf : f.Nested)
    (htags : f.AllTags fun t => ∀ name ∈ names, lower t.name = lower name.toList ∨ t.PassedBy name)
    (after : List Char) : f.Closes names after := by
  induction f generalizing after with
  | nil => trivial
  | text t more ih => exact ih hf.2 htags after
  | comment t more ih => exact ih hf.2 htags after
  | single tag gap more ih => exact ih hf.2.2 htags.2 after
  | paired tag children close more ihc ih =>
    obtain ⟨htag, hclose, hsame, hchildren, hmore⟩ := hf
    obtain ⟨-, hinside, hbehind⟩ := htags
    refine ⟨?_, ih hmore hbehind after⟩
    cases hin : tag.nameIn? names with
    | none => exact ihc hchildren hinside _
    | some name =>
      refine ⟨fun limit => ?_, ihc hchildren hinside []⟩
      obtain ⟨hname, heq⟩ := searchable_of_nameIn? hnames hin
      have hpassed : children.AllTags fun t => lower t.name = lower name.toList ∨ t.PassedBy name :=
        hinside.imp fun t ht => ht name (List.mem_of_find?_eq_some hin)
      rw [findClose_forest hname hchildren hpassed, findClose_close hclose hname (hsame.trans heq)]

/-- In a well-formed document every close tag is found. -/
theorem closes_of_plain {names : List String} (hnames : ∀ name ∈ names, Searchable name) {f : Forest}
    (hf : f.Nested) (hplain : f.AllTags WrittenTag.Plain) (after : List Char) : f.Closes names after := by
  refine closes_of_passed hnames hf ((hf.readable.and hplain).imp fun t ht name hname => ?_) after
  by_cases heq : lower t.name = lower name.toList
  · exact Or.inl heq
  · exact Or.inr (passedBy_of_plain ht.1 ht.2 (hnames name hname) heq)

/-- For one name it is enough that tags of other names have no `<` in their values. -/
theorem closes_of_others {name : String} (hname : Searchable name) {f : Forest} (hf : f.Nested)
    (hothers : f.AllTags fun t => t.nameIn? [name] = none → t.Plain) (after : List Char) :
    f.Closes [name] after := by
  refine closes_of_passed (List.forall_mem_singleton.mpr hname) hf
    ((hf.readable.and hothers).imp fun t ht other hother => ?_) after
  obtain rfl := List.mem_singleton.mp hother
  by_cases heq : lower t.name = lower other.toList
  · exact Or.inl heq
  · exact Or.inr (passedBy_of_plain ht.1 (ht.2 (by simpa [WrittenTag.nameIn?] using heq)) hname heq)

/-- A search inside a document finds the outermost elements of the part that is a tree. -/
theorem find_of_closes {names : List String} (hnames : ∀ name ∈ names, Searchable name) {f : Forest}
    (hf : f.Nested) (htags : f.AllTags fun t => t.nameIn? names = none → t.Plain)
    (hcloses : f.Closes names []) (before behind : List Char) :
    find (before ++ (f.chars ++ behind)) ⟨size before, size before + size f.chars⟩ names =
      .ok (f.outermost names (size before)) := by
  have hscan := @scan_forest (size before + size f.chars) names hnames f hf htags [] hcloses (size before)
    (by rw [List.append_nil])
  rw [List.append_nil, scan_nil] at hscan
  rw [find_append, hscan]
  simp [Except.map]

/-- **A search recovers the tree.** In a well-formed document, with any text before and behind it, it
reports the outermost elements of its names in order, and nothing else. -/
theorem find_forest {names : List String} (hnames : ∀ name ∈ names, Searchable name) {f : Forest}
    (hf : f.WellFormed) (before behind : List Char) :
    find (before ++ (f.chars ++ behind)) ⟨size before, size before + size f.chars⟩ names =
      .ok (f.outermost names (size before)) :=
  find_of_closes hnames hf.nested (hf.plain.others names) (closes_of_plain hnames hf.nested hf.plain []) before behind

/-- A paragraph in a path, with another one inside and a third one in a comment. -/
def paragraphs : Forest :=
  .comment " <p> ".toList
    (.paired ⟨"path".toList, [], []⟩
      (.paired ⟨"P".toList, [⟨[' '], "id".toList, [], [], "a &lt; b".toList⟩], []⟩
        (.single ⟨"p".toList, [], []⟩ [] (.text "c > d".toList .nil))
        ⟨"p".toList, [' ']⟩ .nil)
      ⟨"path".toList, []⟩ .nil)

theorem find_forest_paragraphs :
    paragraphs.chars = "<!-- <p> --><path><P id=\"a &lt; b\"><p/>c > d</p ></path>".toList ∧
      paragraphs.WellFormed ∧ Searchable "p" ∧
        find ([] ++ (paragraphs.chars ++ [])) ⟨0, 0 + size paragraphs.chars⟩ ["p"] =
          .ok [⟨"p", 18, 35, [⟨"id", "a < b"⟩], .paired ⟨35, 44⟩ 49⟩] := by
  have hnames : ∀ name ∈ ["p"], Searchable name := by decide
  have hwell : paragraphs.WellFormed := by decide
  refine ⟨by decide, hwell, by decide, ?_⟩
  have hvalue : Entity.decode "a &lt; b".toList = "a < b".toList := by
    simp [Entity.decode_cons, Entity.decode_nil, Entity.read?, Entity.names, stripPrefix?]
  have hfound : paragraphs.outermost ["p"] 0 =
      [⟨"p", 18, 35, [⟨"id", String.ofList (Entity.decode "a &lt; b".toList)⟩],
        .paired ⟨35, 44⟩ 49⟩] := by
    rfl
  rw [← size_nil, find_forest hnames hwell [] [], size_nil, hfound, hvalue]
  rfl

end DashboardMarkup.Markup
