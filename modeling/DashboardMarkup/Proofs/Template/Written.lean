import DashboardMarkup.Proofs.Markup.Node
import DashboardMarkup.Proofs.Markup.Rendered
import DashboardMarkup.Proofs.Template.Untagged

/-!
# Tags written into a template

An edit writes tags into a text that is a template before it is a document. Attributes that hold no opening
mark are written without one, whatever stands around the tag.

* `Shut`: a text that neither begins nor ends a mark.
* `untagged_meant`: what a text without marks says holds none.
* `shut_rendered`: a tag that is written anew from such attributes is shut.
-/

namespace DashboardMarkup.Template

open Markup Text

/-- **A text that makes no mark with what stands around it.** -/
structure Shut (text : List Char) : Prop where
  untagged : Untagged text
  ne_nil : text ≠ []
  head : ∀ c ∈ text.head?, c ≠ '\x7b' ∧ c ≠ '%'
  last : ∀ c ∈ text.getLast?, c ≠ '\x7b'

theorem untagged_append {s t : List Char} :
    Untagged (s ++ t) ↔ Untagged s ∧ Untagged t ∧
      ∀ a ∈ s.getLast?, ∀ b ∈ t.head?, a = '\x7b' → b ≠ '\x7b' ∧ b ≠ '%' :=
  List.isChain_append

theorem untagged_of_part {s t : List Char} (h : s <:+: t) (ht : Untagged t) : Untagged s :=
  List.IsChain.infix ht h

theorem untagged_of_not_mem {text : List Char} (h : '\x7b' ∉ text) : Untagged text := by
  unfold Untagged
  induction text with
  | nil => exact .nil
  | cons c rest ih =>
    refine (ih fun hmem => h (List.mem_cons_of_mem c hmem)).cons fun b _ hc => ?_
    exact absurd (hc ▸ List.mem_cons_self) h

namespace Shut

variable {s t u : List Char}

theorem append_left (ht : Shut t) (hs : Untagged s) : Untagged (s ++ t) :=
  untagged_append.mpr ⟨hs, ht.untagged, fun _ _ b hb _ => ht.head b hb⟩

theorem append_right (ht : Shut t) (hu : Untagged u) : Untagged (t ++ u) :=
  untagged_append.mpr ⟨ht.untagged, hu, fun a ha _ _ hbrace => absurd hbrace (ht.last a ha)⟩

/-- **A shut text stands between any others.** -/
theorem between (ht : Shut t) (hs : Untagged s) (hu : Untagged u) : Untagged (s ++ (t ++ u)) := by
  refine untagged_append.mpr ⟨hs, ht.append_right hu, fun _ _ b hb _ => ?_⟩
  rw [List.head?_append_of_ne_nil t ht.ne_nil] at hb
  exact ht.head b hb

/-- A text between two that are shut. -/
theorem around (hs : Shut s) (ht : Untagged t) (hu : Shut u) : Shut (s ++ (t ++ u)) := by
  refine ⟨hs.append_right (hu.append_left ht), fun h => hs.ne_nil (List.append_eq_nil_iff.mp h).1, ?_, ?_⟩
  · rw [List.head?_append_of_ne_nil s hs.ne_nil]
    exact hs.head
  · rw [List.getLast?_append_of_ne_nil _ fun h => hu.ne_nil (List.append_eq_nil_iff.mp h).2,
      List.getLast?_append_of_ne_nil _ hu.ne_nil]
    exact hu.last

theorem append (hs : Shut s) (ht : Shut t) : Shut (s ++ t) :=
  hs.around .nil ht

end Shut

instance (text : List Char) : Decidable (Shut text) :=
  -- only the character that is there is looked at, not all characters
  haveI (p : Char → Prop) [DecidablePred p] (o : Option Char) : Decidable (∀ c ∈ o, p c) :=
    Option.decidableForallMem o
  decidable_of_iff
    (Untagged text ∧ text ≠ [] ∧ (∀ c ∈ text.head?, c ≠ '\x7b' ∧ c ≠ '%') ∧
      ∀ c ∈ text.getLast?, c ≠ '\x7b')
    ⟨fun ⟨h1, h2, h3, h4⟩ => ⟨h1, h2, h3, h4⟩, fun h => ⟨h.1, h.2, h.3, h.4⟩⟩

/-! ## Values -/

/-- No character that is named is part of a mark. -/
theorem ne_of_read? {text rest : List Char} {c : Char} (h : Entity.read? text = some (c, rest)) :
    c ≠ '\x7b' ∧ c ≠ '%' := by
  obtain ⟨⟨name, d⟩, hmem, hd⟩ := List.exists_of_findSome?_eq_some h
  simp only [Option.map_eq_some_iff, Prod.mk.injEq] at hd
  obtain ⟨_, -, rfl, -⟩ := hd
  have hall : ∀ entry ∈ Entity.names, entry.2 ≠ '\x7b' ∧ entry.2 ≠ '%' := by decide
  exact hall _ hmem

/-- What follows a named character. -/
theorem suffix_of_read? {text rest : List Char} {c : Char} (h : Entity.read? text = some (c, rest)) :
    rest <:+ text := by
  obtain ⟨⟨name, d⟩, -, hd⟩ := List.exists_of_findSome?_eq_some h
  simp only [Option.map_eq_some_iff, Prod.mk.injEq] at hd
  obtain ⟨r, hr, -, rfl⟩ := hd
  exact ⟨name, (stripPrefix?_eq_some.mp hr).symm⟩

/-- A decoded text begins as before, or with a character that is no part of a mark. -/
theorem head_decode {text : List Char} {b : Char} (h : b ∈ (Entity.decode text).head?) :
    b ∈ text.head? ∨ b ≠ '\x7b' ∧ b ≠ '%' := by
  cases text with
  | nil => exact absurd h (by simp [Entity.decode])
  | cons c cs =>
    rw [Entity.decode] at h
    split at h
    · next d rest hread =>
      obtain rfl := Option.some.inj h
      exact Or.inr (ne_of_read? hread)
    · exact Or.inl h

theorem untagged_decode {text : List Char} (h : Untagged text) : Untagged (Entity.decode text) := by
  fun_induction Entity.decode text with
  | case1 => exact .nil
  | case2 c cs d rest hread ih =>
    refine (ih (untagged_of_part (suffix_of_read? hread).isInfix h)).cons fun b _ hd => ?_
    exact absurd hd (ne_of_read? hread).1
  | case3 c cs hread ih =>
    have hcs : Untagged cs := untagged_of_part (List.suffix_cons c cs).isInfix h
    refine (ih hcs).cons fun b hb hc => ?_
    rcases head_decode hb with hhead | hne
    · cases cs with
      | nil => exact absurd hhead (by simp)
      | cons d ds =>
        obtain rfl := Option.some.inj hhead
        exact (List.isChain_cons_cons.mp h).1 hc
    · exact hne

theorem shut_escapeChar {c : Char} (h : c ≠ '\x7b' ∧ c ≠ '%') : Shut (Entity.escapeChar c) := by
  unfold Entity.escapeChar
  by_cases hamp : (c == '&') = true
  · rw [if_pos hamp]
    decide
  · rw [if_neg hamp]
    by_cases hquote : (c == '"') = true
    · rw [if_pos hquote]
      decide
    · rw [if_neg hquote]
      exact ⟨.singleton c, by simp, by simpa using h, by simpa using h.1⟩

theorem untagged_escape {text : List Char} (h : Untagged text) : Untagged (Entity.escape text) := by
  induction text with
  | nil => exact .nil
  | cons c cs ih =>
    have hcs := ih (untagged_of_part (List.suffix_cons c cs).isInfix h)
    show Untagged (Entity.escapeChar c ++ Entity.escape cs)
    by_cases hc : c ≠ '\x7b' ∧ c ≠ '%'
    · exact (shut_escapeChar hc).append_right hcs
    · -- a brace or a percent sign stands for itself, and so does what makes a mark with it
      have hself : Entity.escapeChar c = [c] := by
        unfold Entity.escapeChar
        rw [if_neg, if_neg]
        · exact fun hq => hc (by rw [beq_iff_eq.mp hq]; decide)
        · exact fun hq => hc (by rw [beq_iff_eq.mp hq]; decide)
      rw [hself]
      refine hcs.cons fun b hb hbrace => ?_
      cases cs with
      | nil => exact absurd hb (by simp [Entity.escape])
      | cons d ds =>
        have hd := (List.isChain_cons_cons.mp h).1 hbrace
        have hshut := shut_escapeChar hd
        refine hshut.head b ?_
        rw [← List.head?_append_of_ne_nil _ hshut.ne_nil]
        exact hb

/-! ## Attributes and tags -/

/-- No opening mark stands in some attributes. -/
def Clean (attrs : Attributes) : Prop :=
  ∀ a ∈ attrs, Untagged a.name.toList ∧ Untagged a.value.toList

instance (attrs : Attributes) : Decidable (Clean attrs) :=
  inferInstanceAs (Decidable (∀ a ∈ attrs, _))

theorem shut_renderAttribute {a : Attribute} (hname : Untagged a.name.toList)
    (hvalue : Untagged a.value.toList) : Shut (renderAttribute a) := by
  have hblank : Shut [' '] := by decide
  have hsign : Shut "=\"".toList := by decide
  have hquote : Shut ['"'] := by decide
  have htext : renderAttribute a =
      [' '] ++ (a.name.toList ++ ("=\"".toList ++ (Entity.escape a.value.toList ++ ['"']))) := by
    simp [renderAttribute]
  rw [htext]
  exact hblank.around hname (hsign.around (untagged_escape hvalue) hquote)

theorem shut_renderAttributes {attrs : Attributes} (h : Clean attrs) {ending : List Char}
    (hending : Shut ending) : Shut (attrs.flatMap renderAttribute ++ ending) := by
  induction attrs with
  | nil => exact hending
  | cons a rest ih =>
    obtain ⟨hname, hvalue⟩ := h a List.mem_cons_self
    rw [List.flatMap_cons, List.append_assoc]
    exact (shut_renderAttribute hname hvalue).append (ih fun b hb => h b (List.mem_cons_of_mem a hb))

/-- **A tag that is written anew is shut**, with any end that is. -/
theorem shut_rendered {name : String} (hname : ∀ c ∈ name.toList, isTagNameChar c = true) {attrs : Attributes}
    (h : Clean attrs) {gap ending : List Char} (hending : Shut (gap ++ ending)) :
    Shut ((WrittenTag.rendered name attrs gap).text ++ ending) := by
  have hopen : Shut ['<'] := by decide
  have hbrace : '\x7b' ∉ name.toList := fun hmem => absurd (hname _ hmem) (by decide)
  have htext : (WrittenTag.rendered name attrs gap).text ++ ending =
      ['<'] ++ (name.toList ++ (attrs.flatMap renderAttribute ++ (gap ++ ending))) := by
    rw [text_rendered]
    simp
  rw [htext]
  exact hopen.around (untagged_of_not_mem hbrace) (shut_renderAttributes h hending)

/-- **What a tag without marks says holds none.** -/
theorem untagged_meant {tag : WrittenTag} (h : Untagged tag.text) : Clean tag.meant := by
  intro a ha
  obtain ⟨w, hw, rfl⟩ := List.mem_map.mp ha
  obtain ⟨front, back, hattrs⟩ := List.append_of_mem hw
  have htext : tag.text = ('<' :: (tag.name ++ (front.flatMap WrittenAttribute.text ++ (w.gap)))) ++ (w.name ++
      ((w.beforeSign ++ '=' :: (w.behindSign ++ ['"'])) ++ (w.raw ++
        ('"' :: (back.flatMap WrittenAttribute.text ++ tag.gap))))) := by
    simp [WrittenTag.text, WrittenTag.body, hattrs, WrittenAttribute.text]
  rw [htext] at h
  have hbehind := (untagged_append.mp h).2.1
  have hraw := (untagged_append.mp (untagged_append.mp hbehind).2.1).2.1
  unfold WrittenAttribute.meant
  rw [String.toList_ofList, String.toList_ofList]
  exact ⟨(untagged_append.mp hbehind).1, untagged_decode (untagged_append.mp hraw).1⟩

/-! ## Trees -/

/-- The tags of a text without marks have none. -/
theorem allTags_untagged {f : Forest} (h : Untagged f.chars) : f.AllTags fun tag => Untagged tag.text := by
  induction f with
  | nil => trivial
  | text t rest ih => exact ih (untagged_append.mp h).2.1
  | comment t rest ih =>
    rw [Forest.chars] at h
    exact ih (untagged_of_part ⟨"<!--".toList ++ (t ++ "-->".toList), [], by simp⟩ h)
  | single tag gap rest ih =>
    obtain ⟨htag, hrest, -⟩ := untagged_append.mp h
    exact ⟨htag, ih (untagged_of_part ⟨'/' :: (gap ++ ['>']), [], by simp⟩ hrest)⟩
  | paired tag children close rest ihc ih =>
    obtain ⟨htag, hrest, -⟩ := untagged_append.mp h
    refine ⟨htag, ihc (untagged_of_part ⟨['>'], close.text ++ rest.chars, by simp⟩ hrest), ih ?_⟩
    exact untagged_of_part ⟨'>' :: (children.chars ++ close.text), [], by simp⟩ hrest

end DashboardMarkup.Template

namespace DashboardMarkup.Markup

/-- What holds of all tags of a tree holds of those of its nodes. -/
theorem exists_tag_of_mem_nodes {p : WrittenTag → Prop} {names : List String} {f : Forest} (hf : f.AllTags p)
    {n : Node} (h : n ∈ f.nodes names) : n.content.AllTags p ∧ ∃ tag, p tag ∧ tag.meant = n.attrs := by
  induction f with
  | nil => exact absurd h List.not_mem_nil
  | text t rest ih => exact ih hf h
  | comment t rest ih => exact ih hf h
  | single tag gap rest ih =>
    rw [Forest.nodes] at h
    rcases List.mem_append.mp h with h | h
    · cases hin : tag.nameIn? names with
      | none =>
        rw [hin] at h
        exact absurd h List.not_mem_nil
      | some name =>
        rw [hin] at h
        rw [List.mem_singleton.mp h]
        exact ⟨trivial, tag, hf.1, rfl⟩
    · exact ih hf.2 h
  | paired tag children close rest ihc ih =>
    rw [Forest.nodes] at h
    rcases List.mem_append.mp h with h | h
    · cases hin : tag.nameIn? names with
      | none =>
        rw [hin] at h
        exact ihc hf.2.1 h
      | some name =>
        rw [hin] at h
        rw [List.mem_singleton.mp h]
        exact ⟨hf.2.1, tag, hf.1, rfl⟩
    · exact ih hf.2.2 h

end DashboardMarkup.Markup
