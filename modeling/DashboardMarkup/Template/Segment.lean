import DashboardMarkup.Text.Cut

/-!
# Segments

A text with tags between two marks is a sequence of plain texts and tags. A tag ends at the first
closing mark; an opening mark without a closing one is plain text, and so is all that follows it.

* `sources_segments`: the segments put back together are the text.
-/

namespace DashboardMarkup.Template

open Text

/-- A piece of a text: plain text, or a tag with the text between its marks. -/
inductive Segment
  | plain (text : List Char)
  | tag (body : List Char)
  deriving DecidableEq, Repr

/-- The marks around a tag. -/
structure Marks where
  opener : List Char
  closer : List Char
  opener_ne : opener ≠ []
  closer_ne : closer ≠ []

/-- The marks around an assignment. -/
def assignMarks : Marks :=
  ⟨['\x7b', '%'], ['%', '\x7d'], by decide, by decide⟩

/-- The marks around an output. -/
def outputMarks : Marks :=
  ⟨['\x7b', '\x7b'], ['\x7d', '\x7d'], by decide, by decide⟩

namespace Segment

/-- A segment as it stands in the text. -/
def source (marks : Marks) : Segment → List Char
  | plain text => text
  | tag body => marks.opener ++ body ++ marks.closer

end Segment

/-- The segments of a text. -/
def segments (marks : Marks) (text : List Char) : List Segment :=
  match _ho : cut? marks.opener text with
  | none => [.plain text]
  | some (before, after) =>
    match _hc : cut? marks.closer after with
    | none => [.plain text]
    | some (body, rest) => .plain before :: .tag body :: segments marks rest
termination_by text.length
decreasing_by
  exact Nat.lt_trans (length_cut?_lt marks.closer_ne _hc) (length_cut?_lt marks.opener_ne _ho)

theorem sources_segments (marks : Marks) (text : List Char) :
    (segments marks text).flatMap (Segment.source marks) = text := by
  fun_induction segments marks text with
  | case1 => simp [Segment.source]
  | case2 => simp [Segment.source]
  | case3 text before after ho body rest hc ih =>
    rw [append_of_cut? ho, append_of_cut? hc]
    simp [Segment.source, ih]

end DashboardMarkup.Template
