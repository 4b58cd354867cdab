import DashboardMarkup.Edit.Lines
import DashboardMarkup.Proofs.Markup.Pruned

/-!
# Trees without superfluous line breaks

Line breaks are superfluous behind two others with only white space between them. They are left out in the whole
document, and so also between the parts of a tag and in comments. What is left is the same tree with less white
space, as long as no value of an attribute has a superfluous one, too.

* `Forest.squeezed`: the tree without superfluous line breaks; `chars_squeezed`: how it is written.
* `reached_squeezed`: it has the same elements.
-/

namespace DashboardMarkup

open Text

namespace Markup

variable {names : List String}

/-! ## Tags -/

theorem not_mem_break_of_isTagNameChar {name : List Char} (h : ∀ c ∈ name, isTagNameChar c = true) : '\n' ∉ name :=
  fun hmem => ne_of_isTagNameChar (h _ hmem) (by decide) rfl

theorem not_mem_break_of_isNameChar {name : List Char} (h : ∀ c ∈ name, Attribute.isNameChar c = true) :
    '\n' ∉ name :=
  fun hmem => absurd (h _ hmem) (by decide)

theorem mem_of_mem_collapseBreaks {breaks : Nat} {t : List Char} {c : Char} (h : c ∈ collapseBreaks breaks t) :
    c ∈ t :=
  (collapseBreaks_sublist breaks t).mem h

/-- An attribute without superfluous line breaks around its name and its sign. -/
def WrittenAttribute.squeezed (a : WrittenAttribute) : WrittenAttribute :=
  { a with
    gap := collapseBreaks 0 a.gap
    beforeSign := collapseBreaks 0 a.beforeSign
    behindSign := collapseBreaks 0 a.behindSign }

/-- A tag without superfluous line breaks. -/
def WrittenTag.squeezed (t : WrittenTag) : WrittenTag :=
  { t with attrs := t.attrs.map WrittenAttribute.squeezed, gap := collapseBreaks 0 t.gap }

/-- A close tag without superfluous line breaks. -/
def WrittenClose.squeezed (t : WrittenClose) : WrittenClose :=
  { t with gap := collapseBreaks 0 t.gap }

/-- No value of a tag is written with a line break. -/
def WrittenTag.Unbroken (t : WrittenTag) : Prop :=
  ∀ a ∈ t.attrs, '\n' ∉ a.raw

instance : DecidablePred WrittenTag.Unbroken := fun t =>
  inferInstanceAs (Decidable (∀ a ∈ t.attrs, '\n' ∉ a.raw))

/-- No value of a tag is written with a superfluous line break. -/
def WrittenTag.Compact (t : WrittenTag) : Prop :=
  ∀ a ∈ t.attrs, collapseBreaks 0 a.raw = a.raw

instance : DecidablePred WrittenTag.Compact := fun t =>
  inferInstanceAs (Decidable (∀ a ∈ t.attrs, collapseBreaks 0 a.raw = a.raw))

theorem WrittenTag.Unbroken.compact {t : WrittenTag} (h : t.Unbroken) : t.Compact :=
  fun a ha => collapseBreaks_of_not_mem (h a ha) 0

/-- The blanks in front of an attribute are set apart from its name, and behind its value the count begins anew. -/
theorem text_squeezed_attribute {a : WrittenAttribute} (h : a.Readable) (hraw : collapseBreaks 0 a.raw = a.raw)
    (rest : List Char) : collapseBreaks 0 (a.text ++ rest) = a.squeezed.text ++ collapseBreaks 0 rest := by
  obtain ⟨c, name, hname⟩ := List.exists_cons_of_ne_nil h.name_ne_nil
  have hchar := fun c hc => (h.name_char c hc).1
  have hblank : isBlank c = false :=
    isBlank_of_isNameChar (hchar c (by rw [hname]; exact List.mem_cons_self))
  have hmore : '\n' ∉ name := fun hmem =>
    not_mem_break_of_isNameChar hchar (by rw [hname]; exact List.mem_cons_of_mem c hmem)
  have hsplit : a.text ++ rest =
      a.gap ++ c :: (name ++ (a.beforeSign ++ '=' :: (a.behindSign ++ '"' :: (a.raw ++ '"' :: rest)))) := by
    simp [WrittenAttribute.text, hname]
  rw [hsplit, collapseBreaks_append_of_not_blank hblank, collapseBreaks_append_of_not_mem hmore,
    collapseBreaks_append_of_not_blank (c := '=') rfl, collapseBreaks_append_of_not_blank (c := '"') rfl,
    collapseBreaks_append_of_not_blank (c := '"') rfl, hraw]
  simp [WrittenAttribute.text, WrittenAttribute.squeezed, hname]

theorem text_squeezed_attributes {attrs : List WrittenAttribute} (h : ∀ a ∈ attrs, a.Readable)
    (hraw : ∀ a ∈ attrs, collapseBreaks 0 a.raw = a.raw) (rest : List Char) :
    collapseBreaks 0 (attrs.flatMap WrittenAttribute.text ++ rest) =
      (attrs.map WrittenAttribute.squeezed).flatMap WrittenAttribute.text ++ collapseBreaks 0 rest := by
  induction attrs with
  | nil => rfl
  | cons a attrs ih =>
    obtain ⟨ha, h⟩ := List.forall_mem_cons.mp h
    obtain ⟨haraw, hraw⟩ := List.forall_mem_cons.mp hraw
    rw [List.flatMap_cons, List.append_assoc, text_squeezed_attribute ha haraw, ih h hraw, List.map_cons,
      List.flatMap_cons, List.append_assoc]

/-- **A tag is written without its superfluous line breaks**, up to what ends it. -/
theorem text_squeezed_tag {t : WrittenTag} (h : t.Readable) (hraw : t.Compact) {c : Char} (hc : isBlank c = false)
    (breaks : Nat) (rest : List Char) :
    collapseBreaks breaks (t.text ++ c :: rest) = t.squeezed.text ++ c :: collapseBreaks 0 rest := by
  have hsplit : t.text ++ c :: rest =
      '<' :: (t.name ++ (t.attrs.flatMap WrittenAttribute.text ++ (t.gap ++ c :: rest))) := by
    simp [WrittenTag.text, WrittenTag.body]
  rw [hsplit, collapseBreaks_cons_of_not_blank (c := '<') rfl,
    collapseBreaks_append_of_not_mem (not_mem_break_of_isTagNameChar h.name_char),
    text_squeezed_attributes h.attr hraw, collapseBreaks_append_of_not_blank hc]
  simp [WrittenTag.text, WrittenTag.body, WrittenTag.squeezed]

theorem text_squeezed_close {t : WrittenClose} (h : t.Readable) (breaks : Nat) (rest : List Char) :
    collapseBreaks breaks (t.text ++ rest) = t.squeezed.text ++ collapseBreaks 0 rest := by
  have hsplit : t.text ++ rest = '<' :: '/' :: (t.name ++ (t.gap ++ '>' :: rest)) := by
    simp [WrittenClose.text]
  rw [hsplit, collapseBreaks_cons_of_not_blank (c := '<') rfl, collapseBreaks_cons_of_not_blank (c := '/') rfl,
    collapseBreaks_append_of_not_mem (not_mem_break_of_isTagNameChar h.name_char),
    collapseBreaks_append_of_not_blank (c := '>') rfl]
  simp [WrittenClose.text, WrittenClose.squeezed]

theorem readable_squeezed_attribute {a : WrittenAttribute} (h : a.Readable) : a.squeezed.Readable where
  gap_ne_nil := collapseBreaks_ne_nil h.gap_ne_nil
  gap_blank c hc := h.gap_blank c (mem_of_mem_collapseBreaks hc)
  name_ne_nil := h.name_ne_nil
  name_char := h.name_char
  beforeSign_blank c hc := h.beforeSign_blank c (mem_of_mem_collapseBreaks hc)
  behindSign_blank c hc := h.behindSign_blank c (mem_of_mem_collapseBreaks hc)
  raw_quoted := h.raw_quoted

theorem readable_squeezed_tag {t : WrittenTag} (h : t.Readable) : t.squeezed.Readable where
  name_ne_nil := h.name_ne_nil
  name_char := h.name_char
  attr a ha := by
    obtain ⟨b, hb, rfl⟩ := List.mem_map.mp ha
    exact readable_squeezed_attribute (h.attr b hb)
  gap_blank c hc := h.gap_blank c (mem_of_mem_collapseBreaks hc)

theorem readable_squeezed_close {t : WrittenClose} (h : t.Readable) : t.squeezed.Readable where
  name_char := h.name_char
  gap_blank c hc := h.gap_blank c (mem_of_mem_collapseBreaks hc)

/-- What a tag says does not depend on its blanks. -/
theorem meant_squeezed (t : WrittenTag) : t.squeezed.meant = t.meant := by
  simp [WrittenTag.meant, WrittenTag.squeezed, WrittenAttribute.meant, WrittenAttribute.squeezed]

/-! ## Trees -/

/-- A tree without superfluous line breaks, behind some line breaks that stand before it. -/
def Forest.squeezed : Nat → Forest → Forest
  | _, nil => nil
  | breaks, text t rest => text (collapseBreaks breaks t) (rest.squeezed (breaksBehind breaks t))
  | _, comment t rest => comment (collapseBreaks 0 t) (rest.squeezed 0)
  | _, single tag gap rest => single tag.squeezed (collapseBreaks 0 gap) (rest.squeezed 0)
  | _, paired tag children close rest =>
    paired tag.squeezed (children.squeezed 0) close.squeezed (rest.squeezed 0)

/-- **A tree without superfluous line breaks is written as what is left of the text of the tree.** -/
theorem chars_squeezed {f : Forest} (hf : f.Nested) (hraw : f.AllTags WrittenTag.Compact) (breaks : Nat) :
    (f.squeezed breaks).chars = collapseBreaks breaks f.chars := by
  induction f generalizing breaks with
  | nil => rfl
  | text t more ih => rw [Forest.squeezed, Forest.chars, Forest.chars, collapseBreaks_append, ih hf.2 hraw]
  | comment t more ih =>
    have hsplit : (Forest.comment t more).chars =
        '<' :: ("!--".toList ++ (t ++ '-' :: ("->".toList ++ more.chars))) := by
      simp [Forest.chars]
    rw [hsplit, collapseBreaks_cons_of_not_blank (c := '<') rfl, collapseBreaks_append_of_not_mem (by decide),
      collapseBreaks_append_of_not_blank (c := '-') rfl, collapseBreaks_append_of_not_mem (by decide),
      ← ih hf.2 hraw]
    simp [Forest.squeezed, Forest.chars]
  | single tag gap more ih =>
    obtain ⟨htag, -, hmore⟩ := hf
    rw [Forest.chars, List.cons_append, text_squeezed_tag htag hraw.1 rfl,
      collapseBreaks_append_of_not_blank (c := '>') rfl, ← ih hmore hraw.2]
    simp [Forest.squeezed, Forest.chars]
  | paired tag children close more ihc ih =>
    obtain ⟨htag, hclose, -, hchildren, hmore⟩ := hf
    rw [Forest.chars, text_squeezed_tag htag hraw.1 rfl, collapseBreaks_append, text_squeezed_close hclose,
      ← ihc hchildren hraw.2.1, ← ih hmore hraw.2.2]
    simp [Forest.squeezed, Forest.chars]

theorem nested_squeezed {f : Forest} (h : f.Nested) (breaks : Nat) : (f.squeezed breaks).Nested := by
  induction f generalizing breaks with
  | nil => trivial
  | text t more ih => exact ⟨fun hmem => h.1 (mem_of_mem_collapseBreaks hmem), ih h.2 _⟩
  | comment t more ih => exact ⟨fun hend => h.1 (infix_of_collapseBreaks (by decide) (by simp) hend), ih h.2 _⟩
  | single tag gap more ih =>
    exact ⟨readable_squeezed_tag h.1, fun c hc => h.2.1 c (mem_of_mem_collapseBreaks hc), ih h.2.2 _⟩
  | paired tag children close more ihc ih =>
    obtain ⟨htag, hclose, hsame, hchildren, hmore⟩ := h
    exact ⟨readable_squeezed_tag htag, readable_squeezed_close hclose, hsame, ihc hchildren _, ih hmore _⟩

theorem plain_squeezed {f : Forest} (h : f.AllTags WrittenTag.Plain) (breaks : Nat) :
    (f.squeezed breaks).AllTags WrittenTag.Plain := by
  have htag : ∀ {t : WrittenTag}, t.Plain → t.squeezed.Plain := fun ht a ha => by
    obtain ⟨b, hb, rfl⟩ := List.mem_map.mp ha
    exact ht b hb
  induction f generalizing breaks with
  | nil => trivial
  | text t more ih => exact ih h _
  | comment t more ih => exact ih h _
  | single tag gap more ih => exact ⟨htag h.1, ih h.2 _⟩
  | paired tag children close more ihc ih => exact ⟨htag h.1, ihc h.2.1 _, ih h.2.2 _⟩

/-- **What is left of a well-formed tree is well-formed.** -/
theorem wellFormed_squeezed {f : Forest} (h : f.WellFormed) (breaks : Nat) : (f.squeezed breaks).WellFormed :=
  ⟨nested_squeezed h.nested breaks, plain_squeezed h.plain breaks⟩

/-- An element found by its own tag, in the tree and in what is left of it. -/
theorem saysAs_squeezed {tag : WrittenTag} {element element' : String → Element}
    (hspeaks : ∀ name, (element name).SaysAs (element' name)) :
    List.Forall₂ Element.SaysAs ((tag.nameIn? names).toList.map element)
      ((tag.squeezed.nameIn? names).toList.map element') := by
  have hname : tag.squeezed.nameIn? names = tag.nameIn? names := rfl
  rw [hname]
  cases tag.nameIn? names with
  | none => exact .nil
  | some name => exact .cons (hspeaks name) .nil

/-- **A tree without superfluous line breaks has the same elements.** -/
theorem reached_squeezed (f : Forest) (breaks offset offset' : Nat) :
    List.Forall₂ Element.SaysAs (f.reached names offset) ((f.squeezed breaks).reached names offset') := by
  induction f generalizing breaks offset offset' with
  | nil => exact .nil
  | text t more ih => exact ih _ _ _
  | comment t more ih => exact ih _ _ _
  | single tag gap more ih =>
    refine List.rel_append (saysAs_squeezed ?_) (ih _ _ _)
    exact fun _ => ⟨rfl, meant_squeezed tag, rfl, rfl⟩
  | paired tag children close more ihc ih =>
    refine List.rel_append (saysAs_squeezed ?_) (List.rel_append ?_ (ih _ _ _))
    · exact fun _ => ⟨rfl, meant_squeezed tag, rfl, rfl⟩
    · have hadmits : tag.squeezed.admits names = tag.admits names := rfl
      rw [hadmits]
      split
      · exact ihc _ _ _
      · exact .nil

end Markup

end DashboardMarkup
