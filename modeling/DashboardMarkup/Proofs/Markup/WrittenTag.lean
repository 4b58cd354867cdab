import DashboardMarkup.Proofs.Markup.Written

/-!
# Tags as they are written

An open tag is written as a name, attributes in double quotes, and blanks where they may stand; a close tag
as a name and blanks. Whatever follows them, the search makes of them what is meant.

* `opening?_tag`, `closing?_close`: a tag is found by its name, in any case of letters, and only by it.
* `finish?_paired`, `finish?_single`: an open tag is read up to its `>`, and told from a self-closing one.
* `behindTag_close`: a close tag is left behind at its `>`.
-/

namespace DashboardMarkup.Markup

open Text

/-! ## Tags -/

/-- An open tag as it is written, up to its `>` or `/`. -/
structure WrittenTag where
  name : List Char
  attrs : List WrittenAttribute
  gap : List Char
  deriving DecidableEq, Repr

namespace WrittenTag

/-- What stands behind the name of a tag. -/
def body (t : WrittenTag) : List Char :=
  t.attrs.flatMap WrittenAttribute.text ++ t.gap

/-- The text of a tag, up to its `>` or `/`. -/
def text (t : WrittenTag) : List Char :=
  '<' :: (t.name ++ t.body)

/-- The attributes of a tag. -/
def meant (t : WrittenTag) : Attributes :=
  t.attrs.map WrittenAttribute.meant

/-- The first of some names that is that of a tag, in any case of letters. -/
def nameIn? (t : WrittenTag) (names : List String) : Option String :=
  names.find? fun name => lower t.name == lower name.toList

/-- The parts of a tag are what they should be. -/
structure Readable (t : WrittenTag) : Prop where
  name_ne_nil : t.name ≠ []
  name_char : ∀ c ∈ t.name, isTagNameChar c = true
  attr : ∀ a ∈ t.attrs, a.Readable
  gap_blank : ∀ c ∈ t.gap, isTagBlank c = true

/-- The parts behind the name of a tag are told apart. -/
structure Delimited (t : WrittenTag) : Prop where
  attr : ∀ a ∈ t.attrs, a.Delimited
  gap_blank : ∀ c ∈ t.gap, isTagBlank c = true

theorem Readable.delimited {t : WrittenTag} (h : t.Readable) : t.Delimited where
  attr a ha := (h.attr a ha).delimited
  gap_blank := h.gap_blank

/-- No value of a tag is written with a `<`. -/
def Plain (t : WrittenTag) : Prop :=
  ∀ a ∈ t.attrs, '<' ∉ a.raw

instance (t : WrittenTag) : Decidable t.Readable :=
  decidable_of_iff
    (t.name ≠ [] ∧ (∀ c ∈ t.name, isTagNameChar c = true) ∧ (∀ a ∈ t.attrs, a.Readable) ∧
      ∀ c ∈ t.gap, isTagBlank c = true)
    ⟨fun ⟨h1, h2, h3, h4⟩ => ⟨h1, h2, h3, h4⟩, fun h => ⟨h.1, h.2, h.3, h.4⟩⟩

instance : DecidablePred WrittenTag.Plain := fun t =>
  inferInstanceAs (Decidable (∀ a ∈ t.attrs, '<' ∉ a.raw))

end WrittenTag

/-- A close tag as it is written. -/
structure WrittenClose where
  name : List Char
  gap : List Char
  deriving DecidableEq, Repr

namespace WrittenClose

/-- The text of a close tag. -/
def text (t : WrittenClose) : List Char :=
  '<' :: '/' :: (t.name ++ (t.gap ++ ['>']))

/-- The parts of a close tag are what they should be. -/
structure Readable (t : WrittenClose) : Prop where
  name_char : ∀ c ∈ t.name, isTagNameChar c = true
  gap_blank : ∀ c ∈ t.gap, isTagBlank c = true

instance (t : WrittenClose) : Decidable t.Readable :=
  decidable_of_iff ((∀ c ∈ t.name, isTagNameChar c = true) ∧ ∀ c ∈ t.gap, isTagBlank c = true)
    ⟨fun ⟨h1, h2⟩ => ⟨h1, h2⟩, fun h => ⟨h.1, h.2⟩⟩

end WrittenClose

/-- Behind blanks or nothing, what ends a name still ends it. -/
theorem endsName_append {gap rest : List Char} (hgap : ∀ c ∈ gap, isTagBlank c = true)
    (hrest : endsName rest = true) : endsName (gap ++ rest) = true := by
  cases gap with
  | nil => exact hrest
  | cons c gap =>
    rw [List.cons_append, endsName_cons]
    simp [isBoundary, hgap c List.mem_cons_self]

theorem endsName_body {t : WrittenTag} (h : t.Readable) {rest : List Char}
    (hrest : endsName rest = true) : endsName (t.body ++ rest) = true := by
  unfold WrittenTag.body
  cases hattrs : t.attrs with
  | nil => exact endsName_append h.gap_blank hrest
  | cons a attrs =>
    have ha := h.attr a (by rw [hattrs]; exact List.mem_cons_self)
    cases hgap : a.gap with
    | nil => exact absurd hgap ha.gap_ne_nil
    | cons c gap =>
      have hc := ha.gap_blank c (by rw [hgap]; exact List.mem_cons_self)
      rw [List.flatMap_cons, WrittenAttribute.text, hgap]
      simp only [List.cons_append, endsName_cons]
      simp [isBoundary, hc]

theorem not_boundary_of_name_char {name : List Char} (h : ∀ c ∈ name, isTagNameChar c = true) :
    ∀ c ∈ name, isBoundary c = false :=
  fun c hc => isBoundary_of_isTagNameChar (h c hc)

/-- **An open tag is found by its name**, in any case of letters, and only by it. -/
theorem opening?_tag {names : List String} {t : WrittenTag} (h : t.Readable)
    (hnames : ∀ name ∈ names, Searchable name) {rest : List Char} (hrest : endsName rest = true) :
    opening? names (t.text ++ rest) = (t.nameIn? names).map fun name => (name, t.body ++ rest) := by
  have hends := endsName_body h hrest
  have hsplit : t.text ++ rest = '<' :: (t.name ++ (t.body ++ rest)) := by
    simp [WrittenTag.text]
  unfold opening? WrittenTag.nameIn?
  rw [hsplit]
  simp only
  induction names with
  | nil => rfl
  | cons name names ih =>
    have hword := named?_word (hnames name List.mem_cons_self) (not_boundary_of_name_char h.name_char)
      hends
    rw [List.findSome?_cons, List.find?_cons, hword]
    by_cases heq : lower t.name = lower name.toList
    · rw [if_pos heq, beq_iff_eq.mpr heq]
      rfl
    · rw [if_neg heq, beq_eq_false_iff_ne.mpr heq]
      exact ih fun name' hname' => hnames name' (List.mem_cons_of_mem name hname')

/-- An open tag is no close tag. -/
theorem closing?_tag {name : String} {t : WrittenTag} (h : t.Readable) (rest : List Char) :
    closing? name (t.text ++ rest) = none := by
  unfold WrittenTag.text
  cases hn : t.name with
  | nil => exact absurd hn h.name_ne_nil
  | cons c cs =>
    have hc := h.name_char c (by rw [hn]; exact List.mem_cons_self)
    have hne : c ≠ '/' := ne_of_isTagNameChar hc (by decide)
    unfold closing?
    simp only [List.cons_append]
    split
    · next heq => exact absurd (List.cons.inj (List.cons.inj heq).2).1 hne
    · rfl

/-- A tag is no comment. -/
theorem comment?_of_ne {c : Char} (hc : c ≠ '!') (rest : List Char) :
    comment? ('<' :: c :: rest) = none := by
  have hc' : ('!' == c) = false := by simpa using hc.symm
  simp [comment?, stripPrefix?, hc']

theorem comment?_tag {t : WrittenTag} (h : t.Readable) (rest : List Char) :
    comment? (t.text ++ rest) = none := by
  unfold WrittenTag.text
  cases hn : t.name with
  | nil => exact absurd hn h.name_ne_nil
  | cons c cs =>
    have hc := h.name_char c (by rw [hn]; exact List.mem_cons_self)
    exact comment?_of_ne (ne_of_isTagNameChar hc (by decide)) _

/-! ## Close tags -/

theorem closing?_close {name : String} {t : WrittenClose} (h : t.Readable) (hname : Searchable name)
    (rest : List Char) :
    closing? name (t.text ++ rest) =
      if lower t.name = lower name.toList then some (t.gap ++ '>' :: rest) else none := by
  have hsplit : t.text ++ rest = '<' :: '/' :: (t.name ++ (t.gap ++ '>' :: rest)) := by
    simp [WrittenClose.text]
  rw [hsplit]
  exact named?_word hname (not_boundary_of_name_char h.name_char) (endsName_append h.gap_blank rfl)

/-- A close tag is no open tag. -/
theorem opening?_close {names : List String} (hnames : ∀ name ∈ names, Searchable name)
    (t : WrittenClose) (rest : List Char) : opening? names (t.text ++ rest) = none := by
  unfold opening? WrittenClose.text
  simp only [List.cons_append]
  rw [List.findSome?_eq_none_iff]
  intro name hname
  have hword := @named?_word name [] ('/' :: (t.name ++ (t.gap ++ ['>']) ++ rest)) (hnames name hname)
    (by simp) rfl
  have hne : ¬lower [] = lower name.toList := by
    intro heq
    have hnil : name.toList = [] := List.map_eq_nil_iff.mp heq.symm
    exact (hnames name hname).1 hnil
  rw [if_neg hne, List.nil_append] at hword
  rw [hword]
  rfl

theorem comment?_close (t : WrittenClose) (rest : List Char) : comment? (t.text ++ rest) = none :=
  comment?_of_ne (by decide) _

/-- A close tag is left behind at its `>`. -/
theorem behindTag_close {t : WrittenClose} (h : t.Readable) (rest : List Char) :
    behindTag (t.text ++ rest) = rest := by
  have hsplit : t.text ++ rest = ('<' :: '/' :: (t.name ++ t.gap)) ++ '>' :: rest := by
    simp [WrittenClose.text]
  have hcut : cutAt? (· == '>') (t.text ++ rest) = some ('<' :: '/' :: (t.name ++ t.gap), rest) := by
    rw [hsplit]
    refine cutAt?_append (fun c hc => ?_) (by decide)
    rw [beq_eq_false_iff_ne]
    rintro rfl
    simp only [List.mem_cons, List.mem_append] at hc
    rcases hc with hc | hc | hc | hc
    · exact absurd hc (by decide)
    · exact absurd hc (by decide)
    · exact absurd (h.name_char '>' hc) (by decide)
    · exact absurd (h.gap_blank '>' hc) (by decide)
  unfold behindTag
  rw [hcut]

/-! ## The end of an open tag -/

/-- Text without quotes and `>` is passed over. -/
theorem cutTag?_append {front rest : List Char}
    (hfront : ∀ c ∈ front, c ≠ '>' ∧ c ≠ '"' ∧ c ≠ '\'') :
    cutTag? none (front ++ rest) =
      (cutTag? none rest).map fun (body, behind) => (front ++ body, behind) := by
  induction front with
  | nil =>
    rw [List.nil_append]
    cases cutTag? none rest <;> rfl
  | cons c front ih =>
    obtain ⟨hgt, hdouble, hsingle⟩ := hfront c List.mem_cons_self
    rw [List.cons_append, cutTag?]
    simp only [beq_iff_eq, hgt, if_false, Bool.or_self, Bool.false_eq_true,
      beq_eq_false_iff_ne.mpr hdouble, beq_eq_false_iff_ne.mpr hsingle]
    rw [ih fun d hd => hfront d (List.mem_cons_of_mem c hd), Option.map_map]
    rfl

/-- A text in double quotes is passed over, whatever it has. -/
theorem cutTag?_quoted {raw rest : List Char} (hraw : '"' ∉ raw) :
    cutTag? (some '"') (raw ++ '"' :: rest) =
      (cutTag? none rest).map fun (body, behind) => (raw ++ '"' :: body, behind) := by
  induction raw with
  | nil =>
    rw [List.nil_append, cutTag?]
    rfl
  | cons c raw ih =>
    have hc : (c == '"') = false := by
      rw [beq_eq_false_iff_ne]
      rintro rfl
      exact hraw List.mem_cons_self
    rw [List.cons_append, cutTag?]
    simp only [hc, Bool.false_eq_true, if_false]
    rw [ih fun hmem => hraw (List.mem_cons_of_mem c hmem), Option.map_map]
    rfl

theorem cutTag?_quote (rest : List Char) :
    cutTag? none ('"' :: rest) =
      (cutTag? (some '"') rest).map fun (body, behind) => ('"' :: body, behind) := by
  rw [cutTag?]
  rfl

theorem ne_of_isTagBlank {c : Char} (h : isTagBlank c = true) : c ≠ '>' ∧ c ≠ '"' ∧ c ≠ '\'' := by
  refine ⟨?_, ?_, ?_⟩
  · rintro rfl
    exact absurd h (by decide)
  · rintro rfl
    exact absurd h (by decide)
  · rintro rfl
    exact absurd h (by decide)

theorem cutTag?_attribute {a : WrittenAttribute} (h : a.Delimited) (rest : List Char) :
    cutTag? none (a.text ++ rest) =
      (cutTag? none rest).map fun (body, behind) => (a.text ++ body, behind) := by
  have hname : ∀ c ∈ a.name, c ≠ '>' ∧ c ≠ '"' ∧ c ≠ '\'' := by
    intro c hc
    have := h.name_char c hc
    simp only [Attribute.isNameChar, Bool.and_eq_true, bne_iff_ne, ne_eq] at this
    exact ⟨this.1.1.1.2, this.1.2, this.2⟩
  have hfront : ∀ c ∈ a.gap ++ (a.name ++ (a.beforeSign ++ '=' :: a.behindSign)),
      c ≠ '>' ∧ c ≠ '"' ∧ c ≠ '\'' := by
    intro c hc
    simp only [List.mem_append, List.mem_cons] at hc
    rcases hc with hc | hc | hc | rfl | hc
    · exact ne_of_isTagBlank (h.gap_blank c hc)
    · exact hname c hc
    · exact ne_of_isTagBlank (isTagBlank_of_isPlainBlank (h.beforeSign_blank c hc))
    · decide
    · exact ne_of_isTagBlank (isTagBlank_of_isPlainBlank (h.behindSign_blank c hc))
  have hsplit : ∀ more : List Char, a.text ++ more =
      (a.gap ++ (a.name ++ (a.beforeSign ++ '=' :: a.behindSign))) ++ '"' :: (a.raw ++ '"' :: more) := by
    intro more
    simp [WrittenAttribute.text]
  rw [hsplit, cutTag?_append hfront, cutTag?_quote, cutTag?_quoted h.raw_quoted, Option.map_map,
    Option.map_map]
  congr 1
  funext p
  simp only [Function.comp_apply, hsplit]

theorem cutTag?_attributes {attrs : List WrittenAttribute} (h : ∀ a ∈ attrs, a.Delimited)
    (rest : List Char) :
    cutTag? none (attrs.flatMap WrittenAttribute.text ++ rest) =
      (cutTag? none rest).map fun (body, behind) =>
        (attrs.flatMap WrittenAttribute.text ++ body, behind) := by
  induction attrs with
  | nil => cases hc : cutTag? none rest <;> simp [hc]
  | cons a attrs ih =>
    rw [List.flatMap_cons, List.append_assoc, cutTag?_attribute (h a List.mem_cons_self),
      ih fun b hb => h b (List.mem_cons_of_mem a hb), Option.map_map]
    congr 1
    funext p
    simp

/-- What is written behind the name of a tag is passed over up to its `>`. -/
theorem cutTag?_body {t : WrittenTag} (h : t.Delimited) {ending rest : List Char}
    (hending : ∀ c ∈ ending, c ≠ '>' ∧ c ≠ '"' ∧ c ≠ '\'') :
    cutTag? none (t.body ++ (ending ++ '>' :: rest)) = some (t.body ++ ending, rest) := by
  have hgap : ∀ c ∈ t.gap ++ ending, c ≠ '>' ∧ c ≠ '"' ∧ c ≠ '\'' := by
    intro c hc
    rcases List.mem_append.mp hc with hc | hc
    · exact ne_of_isTagBlank (h.gap_blank c hc)
    · exact hending c hc
  have hsplit : t.body ++ (ending ++ '>' :: rest) =
      t.attrs.flatMap WrittenAttribute.text ++ ((t.gap ++ ending) ++ '>' :: rest) := by
    simp [WrittenTag.body]
  rw [hsplit, cutTag?_attributes h.attr, cutTag?_append hgap]
  simp [cutTag?, WrittenTag.body]

/-- The text of attributes is empty, or ends with a quote. -/
theorem flatMap_text_cases (attrs : List WrittenAttribute) :
    attrs.flatMap WrittenAttribute.text = [] ∨
      ∃ front, attrs.flatMap WrittenAttribute.text = front ++ ['"'] := by
  rcases List.eq_nil_or_concat attrs with rfl | ⟨more, a, rfl⟩
  · exact Or.inl rfl
  · refine Or.inr ⟨more.flatMap WrittenAttribute.text ++ (a.gap ++ (a.name ++ (a.beforeSign ++
      '=' :: (a.behindSign ++ '"' :: a.raw)))), ?_⟩
    simp [WrittenAttribute.text]

theorem trimEnd_append {front gap : List Char} (hgap : ∀ c ∈ gap, isTagBlank c = true) :
    trimEnd (front ++ gap) = trimEnd front := by
  unfold trimEnd dropEndWhile
  rw [List.reverse_append, List.dropWhile_append_of_pos]
  intro c hc
  exact isBlank_of_isTagBlank (hgap c (List.mem_reverse.mp hc))

/-- **An open tag is read up to its `>`.** -/
theorem finish?_paired {t : WrittenTag} (h : t.Delimited) (rest : List Char) :
    finish? (t.body ++ '>' :: rest) = some (⟨t.meant, false⟩, rest) := by
  have hcut := @cutTag?_body t h [] rest (by simp)
  rw [List.nil_append, List.append_nil] at hcut
  have hread : ∀ text, text = t.attrs.flatMap WrittenAttribute.text →
      Attributes.read text = t.meant := by
    rintro text rfl
    have := @read_attributes t.attrs h.attr [] (by simp)
    rwa [List.append_nil] at this
  unfold finish?
  rw [hcut]
  simp only [Option.map_some, Option.some.injEq, Prod.mk.injEq, and_true]
  unfold OpenTag.ofBody WrittenTag.body
  simp only
  rw [trimEnd_append h.gap_blank]
  rcases flatMap_text_cases t.attrs with hnil | ⟨front, hfront⟩
  · have htrim : trimEnd [] = [] := rfl
    have hstrip : stripSuffix? ['/'] [] = none := rfl
    rw [hnil, htrim, hstrip]
    simp only
    rw [hread [] hnil.symm]
  · have htrim : trimEnd (front ++ ['"']) = front ++ ['"'] :=
      dropEndWhile_append_of_last front (by decide)
    have hstrip : stripSuffix? ['/'] (front ++ ['"']) = none := by
      rw [← Option.not_isSome_iff_eq_none, Option.isSome_iff_exists]
      rintro ⟨r, hr⟩
      have := stripSuffix?_eq_some.mp hr
      have := congrArg List.getLast? this
      simp at this
    rw [hfront, htrim, hstrip]
    simp only
    rw [hread _ hfront.symm]

/-- **A slash before the `>` closes the element.** -/
theorem finish?_single {t : WrittenTag} (h : t.Delimited) {gap : List Char}
    (hgap : ∀ c ∈ gap, isTagBlank c = true) (rest : List Char) :
    finish? (t.body ++ ('/' :: gap ++ '>' :: rest)) = some (⟨t.meant, true⟩, rest) := by
  have hending : ∀ c ∈ '/' :: gap, c ≠ '>' ∧ c ≠ '"' ∧ c ≠ '\'' := by
    intro c hc
    rcases List.mem_cons.mp hc with rfl | hc
    · decide
    · exact ne_of_isTagBlank (hgap c hc)
  have htrim : trimEnd (t.body ++ '/' :: gap) = t.body ++ ['/'] := by
    have hsplit : t.body ++ '/' :: gap = (t.body ++ ['/']) ++ gap := by simp
    rw [hsplit, trimEnd_append hgap]
    exact dropEndWhile_append_of_last t.body (by decide)
  have hstrip : stripSuffix? ['/'] (t.body ++ ['/']) = some t.body := stripSuffix?_eq_some.mpr rfl
  unfold finish?
  rw [cutTag?_body h hending]
  simp only [Option.map_some, Option.some.injEq, Prod.mk.injEq, and_true]
  unfold OpenTag.ofBody
  simp only
  rw [htrim, hstrip]
  simp only
  unfold WrittenTag.body WrittenTag.meant
  rw [read_attributes h.attr h.gap_blank]

end DashboardMarkup.Markup
