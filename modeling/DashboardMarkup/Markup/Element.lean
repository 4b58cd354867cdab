import DashboardMarkup.Markup.Tag
import DashboardMarkup.Text.Span

/-!
# Elements

A document is not parsed into a tree. `find` looks inside a span for the elements of some names and
reports each with the offsets of its parts. It skips comments, pairs open and close tags of one name by
counting, and goes on behind an element it has found, so that nested elements of these names are left
to a second search inside. All else is plain text to it, tags of other names included.
-/

namespace DashboardMarkup

/-- What makes a document unreadable, and where. -/
inductive Fault
  /-- An open tag without its `>`, and the offset of its `<`. -/
  | unterminated (name : String) (start : Nat)
  /-- A container without its close tag, and the offset of its `<`. -/
  | unclosed (name : String) (start : Nat)
  /-- A span whose ends are not in order, inside the text and between characters. -/
  | misplaced (span : Span)
  deriving DecidableEq, Repr

namespace Span

/-- The text that a span covers. -/
def text (span : Span) (doc : List Char) : Except Fault (List Char) :=
  match span.cut? doc with
  | some covered => .ok covered
  | none => .error (.misplaced span)

end Span

namespace Markup

/-- What follows the open tag of an element: nothing, because the tag closes itself; its content and a
close tag that ends at `stop`; or content whose close tag is missing. -/
inductive Body
  | selfClosing
  | paired (inner : Span) (stop : Nat)
  | unclosed
  deriving DecidableEq, Repr

/-- An element of a document. `openEnd` is the offset behind its open tag. -/
structure Element where
  name : String
  start : Nat
  openEnd : Nat
  attrs : Attributes
  body : Body
  deriving DecidableEq, Repr

namespace Element

/-- The span between open and close tag. -/
def inner? (e : Element) : Option Span :=
  match e.body with
  | .paired inner _ => some inner
  | _ => none

/-- The offset behind an element, as far as it is known. -/
def stop (e : Element) : Nat :=
  match e.body with
  | .paired _ stop => stop
  | _ => e.openEnd

/-- The span of a whole element. -/
def span (e : Element) : Span :=
  ⟨e.start, e.stop⟩

/-- Whether the open tag closes itself. -/
def selfClosing (e : Element) : Bool :=
  e.body == .selfClosing

/-- Whether an element needs no close tag or has one. -/
def closed (e : Element) : Bool :=
  e.body != .unclosed

/-- The content of an element; for one without content, an empty span behind its open tag. -/
def content (e : Element) : Span :=
  e.inner?.getD ⟨e.openEnd, e.openEnd⟩

/-- The text between open and close tag, if any. -/
def innerText (e : Element) (doc : List Char) : Except Fault (List Char) :=
  match e.inner? with
  | some inner => inner.text doc
  | none => .ok []

end Element

open Text (size)

/-- What follows the first `>` of a text. -/
def behindTag (text : List Char) : List Char :=
  match Text.cutAt? (· == '>') text with
  | some (_, rest) => rest
  | none => []

theorem length_behindTag_lt {c : Char} {cs : List Char} :
    (behindTag (c :: cs)).length < (c :: cs).length := by
  simp only [behindTag]
  split
  · next h => exact Text.length_cutAt?_lt h
  · simp

/-- Looks for the close tag of an element whose open tag has been read, with `depth` more elements of
its name open inside it. The result is the text that begins with the close tag, and the text behind
it. `limit` is the offset where all these texts end. -/
def findClose (limit : Nat) (name : String) (depth : Nat) (text : List Char) :
    Except Fault (Option (List Char × List Char)) :=
  match text with
  | [] => .ok none
  | c :: cs =>
    match _hc : comment? (c :: cs) with
    | some rest => findClose limit name depth rest
    | none =>
      match closing? name (c :: cs) with
      | some _ =>
        match depth with
        | 0 => .ok (some (c :: cs, behindTag (c :: cs)))
        | depth + 1 => findClose limit name depth (behindTag (c :: cs))
      | none =>
        match _ho : opening? [name] (c :: cs) with
        | some (_, tail) =>
          match _hf : finish? tail with
          | none => .error (.unterminated name (limit - size (c :: cs)))
          | some (tag, rest) =>
            findClose limit name (if tag.selfClosing then depth else depth + 1) rest
        | none => findClose limit name depth cs
termination_by text.length
decreasing_by
  · exact length_comment?_lt _hc
  · exact length_behindTag_lt
  · exact Nat.lt_trans (length_finish?_lt _hf) (length_opening?_lt _ho)
  · simp

theorem length_findClose {limit : Nat} {name : String} {depth : Nat}
    {text close rest : List Char} (h : findClose limit name depth text = .ok (some (close, rest))) :
    rest.length < close.length ∧ close.length ≤ text.length := by
  fun_induction findClose limit name depth text with
  | case1 => simp at h
  | case2 depth c cs r hc ih =>
    have := ih h
    have := length_comment?_lt hc
    omega
  | case3 c cs hc r hr =>
    simp only [Except.ok.injEq, Option.some.injEq, Prod.mk.injEq] at h
    obtain ⟨rfl, rfl⟩ := h
    exact ⟨length_behindTag_lt, Nat.le_refl _⟩
  | case4 c cs hc r hr depth ih =>
    have := ih h
    have := @length_behindTag_lt c cs
    omega
  | case5 => simp at h
  | case6 depth c cs hc hx n tail ho tag r hf ih =>
    have := ih h
    have := length_finish?_lt hf
    have := length_opening?_lt ho
    omega
  | case7 depth c cs hc hx ho ih =>
    have := ih h
    simp only [List.length_cons]
    omega

/-- The elements of some names in a text that ends at offset `limit`. -/
def scan (limit : Nat) (names : List String) (text : List Char) : Except Fault (List Element) :=
  match text with
  | [] => .ok []
  | c :: cs =>
    match _hc : comment? (c :: cs) with
    | some rest => scan limit names rest
    | none =>
      match _ho : opening? names (c :: cs) with
      | none => scan limit names cs
      | some (name, tail) =>
        let start := limit - size (c :: cs)
        match _hf : finish? tail with
        | none => .error (.unterminated name start)
        | some (tag, rest) =>
          let openEnd := limit - size rest
          if tag.selfClosing then
            (scan limit names rest).map
              (⟨name, start, openEnd, tag.attrs, .selfClosing⟩ :: ·)
          else
            match _hx : findClose limit name 0 rest with
            | .error fault => .error fault
            | .ok none =>
              (scan limit names rest).map (⟨name, start, openEnd, tag.attrs, .unclosed⟩ :: ·)
            | .ok (some (close, behind)) =>
              (scan limit names behind).map
                (⟨name, start, openEnd, tag.attrs,
                  .paired ⟨openEnd, limit - size close⟩ (limit - size behind)⟩ :: ·)
termination_by text.length
decreasing_by
  · exact length_comment?_lt _hc
  · simp
  · exact Nat.lt_trans (length_finish?_lt _hf) (length_opening?_lt _ho)
  · exact Nat.lt_trans (length_finish?_lt _hf) (length_opening?_lt _ho)
  · have := length_findClose _hx
    have := length_finish?_lt _hf
    have := length_opening?_lt _ho
    omega

/-- The outermost elements of some names inside a span of a document, in order. -/
def find (doc : List Char) (span : Span) (names : List String) : Except Fault (List Element) :=
  let limit := min span.stop (size doc)
  if span.start < limit then
    match (⟨span.start, limit⟩ : Span).text doc with
    | .error fault => .error fault
    | .ok text => scan limit names text
  else .ok []

/-- The first element of a name inside a span. -/
def findFirst (doc : List Char) (span : Span) (name : String) : Except Fault (Option Element) :=
  (find doc span [name]).map List.head?

end Markup

end DashboardMarkup
