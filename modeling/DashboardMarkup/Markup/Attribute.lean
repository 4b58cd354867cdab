import DashboardMarkup.Markup.Entity
import DashboardMarkup.Text.Blank

/-!
# Attributes

The attribute list of an open tag, in source order and with repetitions. Names are case-sensitive.
A value stands in double quotes, in single quotes, or bare up to the next white space or `>`; a name
without a value has the empty one. What begins no attribute is passed over character by character.

Changes to a list keep the order: a value is replaced where its name stands first, or appended.
-/

namespace DashboardMarkup

/-- A name with its value, entities decoded. -/
structure Attribute where
  name : String
  value : String
  deriving DecidableEq, Repr

/-- The attributes of a tag in source order. -/
abbrev Attributes := List Attribute

namespace Attribute

open Text

/-- Characters that a name is made of. -/
def isNameChar (c : Char) : Bool :=
  !isBlank c && c != '=' && c != '>' && c != '/' && c != '"' && c != '\''

/-- Characters that a bare value is made of. -/
def isBareChar (c : Char) : Bool :=
  !isBlank c && c != '>'

/-- A value without quotes. -/
def bare? (text : List Char) : Option (List Char × List Char) :=
  let value := text.takeWhile isBareChar
  if value.isEmpty then none else some (value, text.dropWhile isBareChar)

/-- The value at the front of a text and the text after it. An opening quote without its partner begins
a bare value. -/
def value? (text : List Char) : Option (List Char × List Char) :=
  (quoted? '"' text).or ((quoted? '\'' text).or (bare? text))

/-- The value behind an equals sign, with plain blanks on either side of the sign. -/
def assigned? (text : List Char) : Option (List Char × List Char) :=
  match text.dropWhile isPlainBlank with
  | '=' :: rest => value? (rest.dropWhile isPlainBlank)
  | _ => none

/-- The attribute at the front of a text and the text after it. -/
def read? (text : List Char) : Option (Attribute × List Char) :=
  let name := text.takeWhile isNameChar
  let rest := text.dropWhile isNameChar
  if name.isEmpty then none
  else
    match assigned? rest with
    | some (value, rest) => some (⟨String.ofList name, String.ofList (Entity.decode value)⟩, rest)
    | none => some (⟨String.ofList name, ""⟩, rest)

theorem length_value?_le {text value rest : List Char} (h : value? text = some (value, rest)) :
    rest.length ≤ text.length := by
  simp only [value?, Option.or_eq_some_iff] at h
  rcases h with h | ⟨-, h | ⟨-, h⟩⟩
  · exact length_quoted?_le h
  · exact length_quoted?_le h
  · simp only [bare?, Option.ite_none_left_eq_some, Option.some.injEq, Prod.mk.injEq] at h
    rw [← h.2.2]
    exact (List.dropWhile_sublist _).length_le

theorem length_assigned?_le {text value rest : List Char}
    (h : assigned? text = some (value, rest)) : rest.length ≤ text.length := by
  have hs := (List.dropWhile_sublist (l := text) isPlainBlank).length_le
  simp only [assigned?] at h
  split at h
  · next r hr =>
    have := length_value?_le h
    have hr' := (List.dropWhile_sublist (l := r) isPlainBlank).length_le
    rw [hr, List.length_cons] at hs
    omega
  · simp at h

theorem length_read?_lt {text rest : List Char} {a : Attribute} (h : read? text = some (a, rest)) :
    rest.length < text.length := by
  have hall := congrArg List.length
    (List.takeWhile_append_dropWhile (p := isNameChar) (l := text))
  simp only [List.length_append] at hall
  simp only [read?, Option.ite_none_left_eq_some, List.isEmpty_iff] at h
  obtain ⟨hne, h⟩ := h
  have hpos := List.length_pos_iff.2 hne
  split at h
  · next v r hv =>
    have := length_assigned?_le hv
    simp only [Option.some.injEq, Prod.mk.injEq] at h
    rw [← h.2]
    omega
  · simp only [Option.some.injEq, Prod.mk.injEq] at h
    rw [← h.2]
    omega

end Attribute

namespace Attributes

/-- The attributes that a text lists. -/
def read (text : List Char) : Attributes :=
  match _ht : Text.trimStart text with
  | [] => []
  | c :: cs =>
    match _h : Attribute.read? (c :: cs) with
    | some (a, rest) => a :: read rest
    | none => read cs
termination_by text.length
decreasing_by
  · have := Attribute.length_read?_lt _h
    have := Text.length_trimStart_le text
    rw [_ht] at this
    omega
  · have := Text.length_trimStart_le text
    rw [_ht, List.length_cons] at this
    omega

/-- The value of the first attribute with a name. -/
def get? (attrs : Attributes) (name : String) : Option String :=
  (attrs.find? fun a => a.name == name).map Attribute.value

/-- Whether some attribute has a name. -/
def has (attrs : Attributes) (name : String) : Bool :=
  (attrs.get? name).isSome

/-- The first value among those of several names that is not blank, trimmed. -/
def first? (attrs : Attributes) (names : List String) : Option String :=
  (names.filterMap fun name => (attrs.get? name).map trimmed).find? (· != "")

/-- The first non-blank value of one name, trimmed. -/
def text? (attrs : Attributes) (name : String) : Option String :=
  attrs.first? [name]

/-! ## Changes -/

/-- Gives a name a value: in place of the value where the name stands first, or at the end. -/
def set (attrs : Attributes) (name value : String) : Attributes :=
  match attrs with
  | [] => [⟨name, value⟩]
  | a :: rest => if a.name = name then ⟨name, value⟩ :: rest else a :: set rest name value

/-- Drops every attribute with a name. -/
def drop (attrs : Attributes) (name : String) : Attributes :=
  attrs.filter fun a => a.name != name

/-- A change to an attribute list. -/
inductive Change
  | set (name value : String)
  | drop (name : String)
  deriving DecidableEq, Repr

/-- The list after a change. -/
def apply (attrs : Attributes) : Change → Attributes
  | .set name value => attrs.set name value
  | .drop name => attrs.drop name

/-- The list after some changes, one after another. -/
def applyAll (attrs : Attributes) (changes : List Change) : Attributes :=
  changes.foldl apply attrs

end Attributes

end DashboardMarkup
