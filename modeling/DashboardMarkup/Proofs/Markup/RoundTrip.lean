import DashboardMarkup.Proofs.Checked.Tag
import DashboardMarkup.Proofs.Markup.Rendered
import Mathlib.Data.List.TakeWhile

/-!
# Open tags read back

A tag is written from a name and attributes in one piece. Three readers take it apart again: one looks for the `>`
outside quotes, one cuts the text before it into attributes, one puts characters in place of their names. They have
to agree on every value, whatever quotes, `>`, slashes and names of characters it is made of.

* `Attributes.named_of_mem_read`: whatever text attributes are read from, their names can be written.
* `finish?_written`: what is written behind the name of a tag is read up to its end, and no further.
* `renderOpen_reads_back`: so an open tag reads back, with any text before and behind it, by its characters as well
  as by its offsets.
-/

namespace DashboardMarkup

open Text

/-! ## Names that can be written -/

/-- An attribute has a name: a text that is not empty, without white space, quotes, `=`, `>` and `/`. -/
def Attribute.Named (a : Attribute) : Prop :=
  a.name.toList ≠ [] ∧ ∀ c ∈ a.name.toList, isNameChar c = true

instance : DecidablePred Attribute.Named :=
  fun _ => inferInstanceAs (Decidable (_ ∧ _))

theorem Attribute.named_of_read? {text rest : List Char} {a : Attribute} (h : read? text = some (a, rest)) :
    a.Named := by
  have hchars : ∀ c ∈ text.takeWhile isNameChar, isNameChar c = true := fun c hc =>
    List.mem_takeWhile_imp hc
  simp only [read?, Option.ite_none_left_eq_some, List.isEmpty_iff] at h
  obtain ⟨hne, h⟩ := h
  -- with a value or without one, the name is the same
  have hname : a.name = String.ofList (text.takeWhile isNameChar) := by
    split at h
    · simp only [Option.some.injEq, Prod.mk.injEq] at h
      rw [← h.1]
    · simp only [Option.some.injEq, Prod.mk.injEq] at h
      rw [← h.1]
  unfold Named
  rw [hname, String.toList_ofList]
  exact ⟨hne, hchars⟩

/-- **Whatever text attributes are read from, they have names.** -/
theorem Attributes.named_of_mem_read (text : List Char) : ∀ a ∈ read text, a.Named := by
  fun_induction read text with
  | case1 => exact fun a ha => by cases ha
  | case2 text c cs ht a rest h ih =>
    exact List.forall_mem_cons.mpr ⟨Attribute.named_of_read? h, ih⟩
  | case3 text c cs ht h ih => exact ih

namespace Markup

/-! ## What is written behind a name -/

/-- What ends an open tag. -/
def OpenTag.ending (tag : OpenTag) : List Char :=
  if tag.selfClosing then " />".toList else ['>']

/-- An open tag as it is written behind its name. -/
def OpenTag.written (tag : OpenTag) : List Char :=
  tag.attrs.flatMap renderAttribute ++ tag.ending

theorem renderOpen_eq (name : String) (tag : OpenTag) :
    renderOpen name tag = '<' :: (name.toList ++ tag.written) := by
  unfold renderOpen OpenTag.written OpenTag.ending
  rw [List.append_assoc]

/-- A name ends where the rest of its tag begins. -/
theorem endsName_written (tag : OpenTag) (after : List Char) : endsName (tag.written ++ after) = true := by
  obtain ⟨attrs, selfClosing⟩ := tag
  cases attrs with
  | nil => cases selfClosing <;> rfl
  | cons a attrs => rfl

/-- **A tag that is written is found by its name**, whatever the name is. -/
theorem opening?_renderOpen (name : String) (tag : OpenTag) (after : List Char) :
    opening? [name] (renderOpen name tag ++ after) = some (name, tag.written ++ after) := by
  have hnamed : named? name (name.toList ++ (tag.written ++ after)) = some (tag.written ++ after) := by
    unfold named?
    rw [stripWord?_append, Option.filter_some, if_pos (endsName_written tag after)]
  rw [renderOpen_eq, List.cons_append, List.append_assoc]
  unfold opening?
  simp only [List.findSome?_cons, hnamed, Option.map_some]

/-! ## What is read behind a name -/

theorem delimited_rendered {attrs : Attributes} (h : ∀ a ∈ attrs, a.Named) (name : String) {gap : List Char}
    (hgap : ∀ c ∈ gap, isTagBlank c = true) : (WrittenTag.rendered name attrs gap).Delimited where
  attr w hw := by
    obtain ⟨a, ha, rfl⟩ := List.mem_map.mp hw
    obtain ⟨hne, hchars⟩ := h a ha
    exact ⟨by simp [WrittenAttribute.rendered, isTagBlank], hne, hchars, by simp [WrittenAttribute.rendered],
      by simp [WrittenAttribute.rendered], quote_not_mem_escape _⟩
  gap_blank := hgap

theorem body_rendered (name : String) (attrs : Attributes) (gap : List Char) :
    (WrittenTag.rendered name attrs gap).body = attrs.flatMap renderAttribute ++ gap := by
  unfold WrittenTag.body WrittenTag.rendered
  simp only [List.flatMap_map, text_rendered_attribute]

/-- **What is written behind the name of a tag is read up to its end**, and no further. -/
theorem finish?_written {tag : OpenTag} (h : ∀ a ∈ tag.attrs, a.Named) (after : List Char) :
    finish? (tag.written ++ after) = some (tag, after) := by
  obtain ⟨attrs, selfClosing⟩ := tag
  cases selfClosing with
  | false =>
    have hfinish := finish?_paired (@delimited_rendered attrs h "" [] (by simp)) after
    rw [body_rendered, meant_rendered, List.append_nil] at hfinish
    unfold OpenTag.written OpenTag.ending
    rw [List.append_assoc]
    exact hfinish
  | true =>
    have hfinish := @finish?_single _ (@delimited_rendered attrs h "" [' '] (by decide)) [] (by simp) after
    rw [body_rendered, meant_rendered, List.append_assoc] at hfinish
    unfold OpenTag.written OpenTag.ending
    rw [List.append_assoc]
    exact hfinish

/-- **Attributes that are written are read** as they were, in order and with repetitions. -/
theorem read_rendered {attrs : Attributes} (h : ∀ a ∈ attrs, a.Named) :
    Attributes.read (attrs.flatMap renderAttribute) = attrs := by
  have hread := @read_attributes _ (@delimited_rendered attrs h "" [] (by simp)).attr [] (by simp)
  change Attributes.read (WrittenTag.rendered "" attrs []).body = (WrittenTag.rendered "" attrs []).meant at hread
  rw [body_rendered, meant_rendered, List.append_nil] at hread
  exact hread

/-! ## The round trip -/

/-- **An open tag reads back**, whatever its name, its values and the text around it. It is found by its name and
read up to its end, both by its characters and, in a document, by its offsets: the program stops at the offset
behind it. Values that were escaped are decoded to what they were, and so attributes that have once been read from
any text at all are the same when they are written and read again. -/
theorem renderOpen_reads_back (name : String) (tag : OpenTag) (hnamed : ∀ a ∈ tag.attrs, a.Named)
    (before after behind : List Char) :
    (∃ tail, opening? [name] (renderOpen name tag ++ after) = some (name, tail) ∧
        finish? tail = some (tag, after)) ∧
      Checked.readOpenTag (before ++ (renderOpen name tag ++ after ++ behind)) (size before) name
          (size before + size (renderOpen name tag ++ after)) =
        .ok (.ok (tag, size before + size (renderOpen name tag))) ∧
      (∀ value, Entity.decode (Entity.escape value) = value) ∧
      ∀ text, Attributes.read ((Attributes.read text).flatMap renderAttribute) = Attributes.read text := by
  have hopening := opening?_renderOpen name tag after
  have hfinish := finish?_written hnamed after
  refine ⟨⟨_, hopening, hfinish⟩, ?_, Entity.decode_escape, fun text =>
    read_rendered (Attributes.named_of_mem_read text)⟩
  have hends : Checked.EndsAt (before ++ (renderOpen name tag ++ after ++ behind))
      (size before + size (renderOpen name tag ++ after)) (renderOpen name tag ++ after) :=
    ⟨before, behind, rfl, rfl⟩
  have hread := Checked.readOpenTag_eq hends hopening
  rw [hfinish, Nat.add_sub_cancel] at hread
  rw [hread, size_append]
  simp only [← Nat.add_assoc, Nat.add_sub_cancel]

/-- An attribute twice, and a `<` in a name; a value with quotes, a `>` and what looks like the name of a
character. -/
theorem renderOpen_reads_back_awkward :
    (∀ a ∈ ([⟨"t", "\"a\" > &amp;lt;"⟩, ⟨"a<b", "'"⟩, ⟨"t", ""⟩] : Attributes), a.Named) ∧
      renderOpen "kpi" ⟨[⟨"t", "\"a\" > &amp;lt;"⟩, ⟨"a<b", "'"⟩, ⟨"t", ""⟩], true⟩ =
        "<kpi t=\"&quot;a&quot; > &amp;amp;lt;\" a<b=\"'\" t=\"\" />".toList ∧
      ∃ tail, opening? ["kpi"] ("<kpi t=\"&quot;a&quot; > &amp;amp;lt;\" a<b=\"'\" t=\"\" />".toList ++ "x>".toList) =
          some ("kpi", tail) ∧
        finish? tail =
          some (⟨[⟨"t", "\"a\" > &amp;lt;"⟩, ⟨"a<b", "'"⟩, ⟨"t", ""⟩], true⟩, "x>".toList) := by
  have hnamed : ∀ a ∈ ([⟨"t", "\"a\" > &amp;lt;"⟩, ⟨"a<b", "'"⟩, ⟨"t", ""⟩] : Attributes), a.Named := by
    decide
  have htext : renderOpen "kpi" ⟨[⟨"t", "\"a\" > &amp;lt;"⟩, ⟨"a<b", "'"⟩, ⟨"t", ""⟩], true⟩ =
      "<kpi t=\"&quot;a&quot; > &amp;amp;lt;\" a<b=\"'\" t=\"\" />".toList := by
    decide
  have hback := (renderOpen_reads_back "kpi" ⟨_, true⟩ hnamed [] "x>".toList []).1
  rw [htext] at hback
  exact ⟨hnamed, htext, hback⟩

end Markup

end DashboardMarkup
