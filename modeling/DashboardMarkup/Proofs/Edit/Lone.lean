import DashboardMarkup.Proofs.Edit.NewBlock

/-!
# Elements that are written

Groups and widgets are written with a close tag; data sources and styling tokens are written as tags that close
themselves, all that they say in attributes.

* `Settable`: attributes that can be written.
* `wellFormed_element`, `shut_element`: an element around a tree is one, and makes no mark of a template.
* `wellFormed_loneTag`, `shut_loneTag`: so is a tag that closes itself.
* `nodes_loneTag`: a search finds it, with the attributes it was given.
-/

namespace DashboardMarkup.Edit

open Markup Template Text

/-- An attribute that can be written into a document: it is one, and holds neither `<` nor an opening mark of
a template. -/
structure Settable (a : Attribute) : Prop where
  name : AttributeName a.name
  plain : '<' ∉ a.value.toList
  untagged : Untagged a.name.toList ∧ Untagged a.value.toList

section

variable {name : String} (hname : TagName name) {attrs : Attributes} (hattrs : ∀ a ∈ attrs, Settable a)

include hname hattrs

/-- **An element around a well-formed tree.** -/
theorem wellFormed_element {children : Forest} (h : children.WellFormed) :
    (element name attrs children).WellFormed := by
  have hreadable := @readable_rendered name attrs [] hname.1 hname.2 (fun a ha => (hattrs a ha).name) (by decide)
  have hclose : WrittenClose.Readable ⟨name.toList, []⟩ := ⟨hname.2, by simp⟩
  have hplain := plain_rendered (fun a ha => (hattrs a ha).plain) name []
  exact ⟨⟨hreadable, hclose, rfl, h.nested, trivial⟩, hplain, h.plain, trivial⟩

theorem shut_element {children : Forest} (h : Untagged children.chars) :
    Shut (element name attrs children).chars := by
  have hopen : Shut ((WrittenTag.rendered name attrs []).text ++ ['>']) :=
    shut_rendered hname.2 (fun a ha => (hattrs a ha).untagged) (by decide)
  have hchars : (element name attrs children).chars = ((WrittenTag.rendered name attrs []).text ++ ['>']) ++
      (children.chars ++ (['<', '/'] ++ (name.toList ++ ['>']))) := by
    simp [element, Forest.chars, WrittenClose.text]
  rw [hchars]
  exact hopen.around h (shut_close hname)

end

/-- A tag that closes itself. -/
def loneTag (name : String) (attrs : Attributes) : Forest :=
  .single (.rendered name attrs [' ']) [] .nil

section

variable (name : String) (attrs : Attributes)

theorem chars_loneTag : (loneTag name attrs).chars = selfClosingTag name attrs := by
  unfold selfClosingTag
  rw [renderOpen_single]
  simp [loneTag, Forest.chars]

theorem trim_loneTag : Text.trim (loneTag name attrs).chars = (loneTag name attrs).chars := by
  have hchars : (loneTag name attrs).chars =
      '<' :: ((name.toList ++ (attrs.flatMap renderAttribute ++ [' ', '/'])) ++ ['>']) := by
    unfold loneTag
    rw [Forest.chars, text_rendered]
    simp [Forest.chars]
  rw [hchars]
  exact trim_eq_self (by decide) (by decide) _

theorem nameIn?_rendered (names : List String) (gap : List Char) :
    (WrittenTag.rendered name attrs gap).nameIn? names = sameIn? names name :=
  rfl

variable {name} {names : List String}

/-- **A search that looks for the tag finds it.** -/
theorem nodes_loneTag (hin : sameIn? names name = some name) :
    (loneTag name attrs).nodes names = [⟨name, attrs, .nil⟩] := by
  simp only [loneTag, Forest.nodes, nameIn?_rendered, hin, meant_rendered, List.append_nil]

theorem nodes_loneTag_of_none (hin : sameIn? names name = none) : (loneTag name attrs).nodes names = [] := by
  simp only [loneTag, Forest.nodes, nameIn?_rendered, hin, List.append_nil]

theorem reachedNodes_loneTag (hin : sameIn? names name = none) :
    (loneTag name attrs).reachedNodes names = [] := by
  simp only [loneTag, Forest.reachedNodes, nameIn?_rendered, hin, Option.toList_none, List.map_nil,
    List.append_nil]

end

section

variable {name : String} (hname : TagName name) {attrs : Attributes}

include hname

theorem wellFormed_loneTag (hattrs : ∀ a ∈ attrs, AttributeName a.name)
    (hplain : ∀ a ∈ attrs, '<' ∉ a.value.toList) : (loneTag name attrs).WellFormed := by
  have hreadable := @readable_rendered name attrs [' '] hname.1 hname.2 hattrs (by decide)
  exact ⟨⟨hreadable, by decide, trivial⟩, plain_rendered hplain _ _, trivial⟩

theorem shut_loneTag (h : ∀ a ∈ attrs, Settable a) : Shut (loneTag name attrs).chars := by
  have hshut : Shut ((WrittenTag.rendered name attrs [' ']).text ++ ['/', '>']) :=
    shut_rendered hname.2 (fun a ha => (h a ha).untagged) (by decide)
  unfold loneTag
  exact hshut

end

end DashboardMarkup.Edit
