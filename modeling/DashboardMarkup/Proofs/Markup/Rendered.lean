import DashboardMarkup.Proofs.Markup.WrittenTag

/-!
# Tags as an edit writes them

`renderOpen` writes a tag from its attributes: one blank before each of them, no blanks around the equals
sign, and `&` and `"` in the values escaped. Other characters of a value are written as they are, `<` among
them.

* `meant_rendered`: a tag that is written anew says what it was given, with any values.
* `readable_rendered`: its parts are what they should be.
* `get?_set`, `get?_set_of_ne`: what an attribute list says once a name has been given a value.
* `set_set`: of two values that are given to a name the last one stays.
-/

namespace DashboardMarkup.Markup

open Text

/-- A name that an attribute can have. -/
def AttributeName (name : String) : Prop :=
  name.toList ≠ [] ∧ ∀ c ∈ name.toList, Attribute.isNameChar c = true ∧ c ≠ '<'

instance (name : String) : Decidable (AttributeName name) :=
  inferInstanceAs (Decidable (_ ∧ _))

/-- An attribute as an edit writes it. -/
def WrittenAttribute.rendered (a : Attribute) : WrittenAttribute :=
  ⟨[' '], a.name.toList, [], [], Entity.escape a.value.toList⟩

/-- A tag as an edit writes it, with some blanks before its `>` or `/`. -/
def WrittenTag.rendered (name : String) (attrs : Attributes) (gap : List Char) : WrittenTag :=
  ⟨name.toList, attrs.map WrittenAttribute.rendered, gap⟩

theorem text_rendered_attribute (a : Attribute) :
    (WrittenAttribute.rendered a).text = renderAttribute a := by
  simp [WrittenAttribute.text, WrittenAttribute.rendered, renderAttribute]

theorem text_rendered (name : String) (attrs : Attributes) (gap : List Char) :
    (WrittenTag.rendered name attrs gap).text =
      '<' :: (name.toList ++ (attrs.flatMap renderAttribute ++ gap)) := by
  unfold WrittenTag.text WrittenTag.body WrittenTag.rendered
  simp only [List.flatMap_map, text_rendered_attribute]

theorem renderOpen_paired (name : String) (attrs : Attributes) :
    renderOpen name { attrs, selfClosing := false } =
      (WrittenTag.rendered name attrs []).text ++ ['>'] := by
  rw [text_rendered]
  simp [renderOpen]

theorem renderOpen_single (name : String) (attrs : Attributes) :
    renderOpen name { attrs, selfClosing := true } =
      (WrittenTag.rendered name attrs [' ']).text ++ ['/', '>'] := by
  rw [text_rendered]
  simp [renderOpen]

theorem meant_rendered_attribute (a : Attribute) : (WrittenAttribute.rendered a).meant = a := by
  simp [WrittenAttribute.meant, WrittenAttribute.rendered, Entity.decode_escape]

/-- **A tag that is written anew says what it was given**, with any values. -/
theorem meant_rendered (name : String) (attrs : Attributes) (gap : List Char) :
    (WrittenTag.rendered name attrs gap).meant = attrs := by
  unfold WrittenTag.meant WrittenTag.rendered
  rw [List.map_map]
  calc attrs.map (WrittenAttribute.meant ∘ WrittenAttribute.rendered)
      = attrs.map id := List.map_congr_left fun a _ => meant_rendered_attribute a
    _ = attrs := List.map_id attrs

theorem quote_not_mem_escape (text : List Char) : '"' ∉ Entity.escape text := by
  intro hmem
  obtain ⟨c, -, hc⟩ := List.mem_flatMap.mp hmem
  unfold Entity.escapeChar at hc
  split at hc
  · exact absurd hc (by decide)
  · split at hc
    · exact absurd hc (by decide)
    · next hne =>
      rw [List.mem_singleton] at hc
      exact hne (beq_iff_eq.mpr hc.symm)

theorem readable_rendered {name : String} {attrs : Attributes} {gap : List Char}
    (hname : name.toList ≠ []) (hchar : ∀ c ∈ name.toList, isTagNameChar c = true)
    (hattrs : ∀ a ∈ attrs, AttributeName a.name) (hgap : ∀ c ∈ gap, isTagBlank c = true) :
    (WrittenTag.rendered name attrs gap).Readable where
  name_ne_nil := hname
  name_char := hchar
  attr w hw := by
    obtain ⟨a, ha, rfl⟩ := List.mem_map.mp hw
    obtain ⟨hne, hchars⟩ := hattrs a ha
    exact ⟨List.cons_ne_nil _ _, by simp [WrittenAttribute.rendered, isTagBlank], hne, hchars,
      by simp [WrittenAttribute.rendered], by simp [WrittenAttribute.rendered], quote_not_mem_escape _⟩
  gap_blank := hgap

/-- The names in a tag that can be read are names of attributes. -/
theorem attributeName_of_readable {t : WrittenTag} (h : t.Readable) :
    ∀ a ∈ t.meant, AttributeName a.name := by
  intro a ha
  obtain ⟨w, hw, rfl⟩ := List.mem_map.mp ha
  have hr := h.attr w hw
  unfold AttributeName WrittenAttribute.meant
  rw [String.toList_ofList]
  exact ⟨hr.name_ne_nil, hr.name_char⟩

theorem mem_set {attrs : Attributes} {name value : String} {a : Attribute}
    (h : a ∈ attrs.set name value) : a = ⟨name, value⟩ ∨ a ∈ attrs := by
  induction attrs with
  | nil =>
    left
    simpa [Attributes.set] using h
  | cons b attrs ih =>
    rw [Attributes.set] at h
    split at h
    · rcases List.mem_cons.mp h with h | h
      · exact Or.inl h
      · exact Or.inr (List.mem_cons_of_mem b h)
    · rcases List.mem_cons.mp h with rfl | h
      · exact Or.inr List.mem_cons_self
      · exact (ih h).imp_right (List.mem_cons_of_mem b)

theorem get?_set (attrs : Attributes) (name value : String) :
    (attrs.set name value).get? name = some value := by
  induction attrs with
  | nil => simp [Attributes.set, Attributes.get?]
  | cons b attrs ih =>
    rw [Attributes.set]
    split
    · simp [Attributes.get?]
    · next hne =>
      unfold Attributes.get? at ih ⊢
      rw [List.find?_cons_of_neg (by simpa using hne)]
      exact ih

theorem get?_set_of_ne (attrs : Attributes) {name other : String} (value : String) (hne : other ≠ name) :
    (attrs.set name value).get? other = attrs.get? other := by
  have hname : (name == other) = false := by simpa using hne.symm
  induction attrs with
  | nil => simp [Attributes.set, Attributes.get?, hne.symm]
  | cons b attrs ih =>
    rw [Attributes.set]
    unfold Attributes.get? at ih ⊢
    split
    · next heq => rw [List.find?_cons, List.find?_cons, heq, hname]
    · rw [List.find?_cons, List.find?_cons]
      cases b.name == other with
      | true => rfl
      | false => exact ih

theorem set_set (attrs : Attributes) (name a b : String) :
    (attrs.set name a).set name b = attrs.set name b := by
  induction attrs with
  | nil => simp [Attributes.set]
  | cons c attrs ih =>
    rw [Attributes.set, Attributes.set]
    split
    · rw [Attributes.set, if_pos rfl]
    · next hne => rw [Attributes.set, if_neg hne, ih]

end DashboardMarkup.Markup
