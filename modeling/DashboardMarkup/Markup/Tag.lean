import DashboardMarkup.Markup.Attribute
import DashboardMarkup.Text.Case

/-!
# Tags and comments

What may stand where a text has a `<`: a comment, the close tag of a name, or an open tag of one of the
names that are looked for. Names are compared without regard to the case of letters, and a name ends
at white space, `>`, `/` or the end of the text. An open tag ends at the first `>` outside quotes, a
close tag at the first `>` of all.

* `length_comment?_lt`, `length_opening?_lt`, `length_closing?_lt`, `length_finish?_lt`: each of them
  leaves a shorter text.
-/

namespace DashboardMarkup.Markup

open Text

/-- What follows a comment at the front of a text. A comment that is not closed goes to the end. -/
def comment? (text : List Char) : Option (List Char) :=
  (stripPrefix? "<!--".toList text).map fun body =>
    match cut? "-->".toList body with
    | some (_, rest) => rest
    | none => []

/-- Whether a tag name that has been read ends there. -/
def endsName : List Char → Bool
  | [] => true
  | c :: _ => isTagBlank c || c == '>' || c == '/'

/-- What follows a tag name at the front of a text. -/
def named? (name : String) (text : List Char) : Option (List Char) :=
  (stripWord? name.toList text).filter endsName

/-- The first of some names whose open tag begins a text, and the text after the name. -/
def opening? (names : List String) : List Char → Option (String × List Char)
  | '<' :: text => names.findSome? fun name => (named? name text).map fun rest => (name, rest)
  | _ => none

/-- What follows the name of a close tag that begins a text. -/
def closing? (name : String) : List Char → Option (List Char)
  | '<' :: '/' :: text => named? name text
  | _ => none

/-- The texts before and after the first `>` outside quotes; `quote` is the quote that is open. -/
def cutTag? (quote : Option Char) : List Char → Option (List Char × List Char)
  | [] => none
  | c :: cs =>
    match quote with
    | some q =>
      (cutTag? (if c == q then none else some q) cs).map fun (body, rest) => (c :: body, rest)
    | none =>
      if c == '>' then some ([], cs)
      else
        (cutTag? (if c == '"' || c == '\'' then some c else none) cs).map fun (body, rest) =>
          (c :: body, rest)

/-- An open tag, its name aside. -/
structure OpenTag where
  attrs : Attributes
  selfClosing : Bool
  deriving DecidableEq, Repr

/-- The tag that has a text between its name and its `>`. A slash at its end closes the element. -/
def OpenTag.ofBody (body : List Char) : OpenTag :=
  let body := trimEnd body
  match stripSuffix? ['/'] body with
  | some body => ⟨Attributes.read body, true⟩
  | none => ⟨Attributes.read body, false⟩

/-- The open tag whose name has been read, and the text after it; none if its `>` is missing. -/
def finish? (text : List Char) : Option (OpenTag × List Char) :=
  (cutTag? none text).map fun (body, rest) => (OpenTag.ofBody body, rest)

/-- An attribute as it is written in a tag. -/
def renderAttribute (a : Attribute) : List Char :=
  ' ' :: (a.name.toList ++ "=\"".toList ++ Entity.escape a.value.toList ++ ['"'])

/-- The text of an open tag. -/
def renderOpen (name : String) (tag : OpenTag) : List Char :=
  '<' :: (name.toList ++ tag.attrs.flatMap renderAttribute ++
    if tag.selfClosing then " />".toList else ['>'])

/-- The text of a close tag. -/
def renderClose (name : String) : List Char :=
  "</".toList ++ name.toList ++ ['>']

theorem length_comment?_lt {text rest : List Char} (h : comment? text = some rest) :
    rest.length < text.length := by
  simp only [comment?, Option.map_eq_some_iff, stripPrefix?_eq_some] at h
  obtain ⟨body, rfl, h⟩ := h
  have hmark : "<!--".toList.length = 4 := rfl
  rw [List.length_append, hmark]
  split at h
  · next hc =>
    have := length_cut?_lt (by decide) hc
    subst h
    omega
  · subst h
    simp only [List.length_nil]
    omega

theorem length_named?_le {name : String} {text rest : List Char} (h : named? name text = some rest) :
    rest.length ≤ text.length := by
  simp only [named?, Option.filter_eq_some_iff] at h
  obtain ⟨found, rfl, -⟩ := append_of_stripWord? h.1
  simp

theorem length_opening?_lt {names : List String} {name : String} {text rest : List Char}
    (h : opening? names text = some (name, rest)) : rest.length < text.length := by
  simp only [opening?] at h
  split at h
  · obtain ⟨n, -, hn⟩ := List.exists_of_findSome?_eq_some h
    simp only [Option.map_eq_some_iff, Prod.mk.injEq] at hn
    obtain ⟨r, hr, -, rfl⟩ := hn
    have := length_named?_le hr
    simp only [List.length_cons]
    omega
  · simp at h

theorem length_closing?_lt {name : String} {text rest : List Char}
    (h : closing? name text = some rest) : rest.length < text.length := by
  simp only [closing?] at h
  split at h
  · have := length_named?_le h
    simp only [List.length_cons]
    omega
  · simp at h

theorem append_of_cutTag? {quote : Option Char} {text body rest : List Char}
    (h : cutTag? quote text = some (body, rest)) : text = body ++ '>' :: rest := by
  induction text generalizing quote body with
  | nil => simp [cutTag?] at h
  | cons c cs ih =>
    simp only [cutTag?] at h
    split at h
    · simp only [Option.map_eq_some_iff, Prod.mk.injEq, Prod.exists] at h
      obtain ⟨b, r, hb, rfl, rfl⟩ := h
      simp [ih hb]
    · split at h
      · next hc =>
        simp only [Option.some.injEq, Prod.mk.injEq] at h
        obtain ⟨rfl, rfl⟩ := h
        simp [beq_iff_eq.1 hc]
      · simp only [Option.map_eq_some_iff, Prod.mk.injEq, Prod.exists] at h
        obtain ⟨b, r, hb, rfl, rfl⟩ := h
        simp [ih hb]

theorem length_finish?_lt {text rest : List Char} {tag : OpenTag}
    (h : finish? text = some (tag, rest)) : rest.length < text.length := by
  simp only [finish?, Option.map_eq_some_iff, Prod.mk.injEq, Prod.exists] at h
  obtain ⟨body, r, hc, -, rfl⟩ := h
  rw [append_of_cutTag? hc]
  simp only [List.length_append, List.length_cons]
  omega

end DashboardMarkup.Markup
