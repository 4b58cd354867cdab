import DashboardMarkup.Markup.Element

/-!
# Splices

An edit of a document is a list of splices, spans with the text that takes their place. They are
applied from the last to the first, so that a splice does not move the spans still to come. A span that
does not fit the text it is applied to makes the edit fail.

* `apply_append`: a splice of the middle part of a text changes that part and nothing else.
-/

namespace DashboardMarkup

/-- The texts before and behind a span, if its ends are in order, inside the text and between
characters. -/
def Span.around? (span : Span) (text : List Char) : Option (List Char × List Char) := do
  let (before, rest) ← Text.splitBytes? span.start text
  if span.stop < span.start then none
  else
    let (_, behind) ← Text.splitBytes? (span.stop - span.start) rest
    return (before, behind)

/-- A span and the text that takes its place. -/
structure Splice where
  span : Span
  text : List Char
  deriving DecidableEq, Repr

/-- The result of an edit, or a span that did not fit. -/
abbrev Edited (α : Type) := Except Span α

namespace Splice

/-- The document after a splice. -/
def apply (doc : List Char) (s : Splice) : Edited (List Char) :=
  match s.span.around? doc with
  | some (before, behind) => .ok (before ++ (s.text ++ behind))
  | none => .error s.span

/-- Splices in the order in which they are applied: by descending start, and otherwise as given. -/
def ordered (splices : List Splice) : List Splice :=
  splices.mergeSort fun a b => b.span.start ≤ a.span.start

/-- The document after some splices. -/
def applyAll (doc : List Char) (splices : List Splice) : Edited (List Char) :=
  (ordered splices).foldlM apply doc

/-- The document after the splices of a plan. A fault of the document leaves it as it is. -/
def carryOut (doc : List Char) (plan : Except Fault (List Splice)) : Edited (List Char) :=
  match plan with
  | .ok splices => applyAll doc splices
  | .error (.misplaced span) => .error span
  | .error _ => .ok doc

theorem around?_append (a b c : List Char) :
    Span.around? ⟨Text.size a, Text.size a + Text.size b⟩ (a ++ (b ++ c)) = some (a, c) := by
  simp only [Span.around?, Text.splitBytes?_append, Option.bind_eq_bind, Option.bind_some]
  rw [if_neg (by omega), Nat.add_sub_cancel_left, Text.splitBytes?_append]
  rfl

theorem apply_append (a b c text : List Char) :
    apply (a ++ (b ++ c)) ⟨⟨Text.size a, Text.size a + Text.size b⟩, text⟩ =
      .ok (a ++ (text ++ c)) := by
  simp only [apply, around?_append]

end Splice

end DashboardMarkup
