/-!
# Spans of bytes

Offsets into a document count the bytes of its UTF-8 encoding. A `Span` is a range of such offsets.
It can be cut out of a text only if both ends lie between characters and inside the text.

* `splitBytes?_append`: the boundary after a part of a text splits it there.
* `append_of_splitBytes?`: a split loses nothing, and the first part has the asked number of bytes.
* `cut?_append`: the span of the middle part of a text cuts out that part.
* `without_cons_of_apart`, `without_cons_of_meets`: what one hole does to what is left of a span.
-/

namespace DashboardMarkup.Text

/-- The number of bytes of a text in UTF-8. -/
def size : List Char → Nat
  | [] => 0
  | c :: cs => c.utf8Size + size cs

@[simp] theorem size_nil : size [] = 0 := rfl

@[simp] theorem size_cons (c : Char) (cs : List Char) : size (c :: cs) = c.utf8Size + size cs := rfl

@[simp] theorem size_append (a b : List Char) : size (a ++ b) = size a + size b := by
  induction a with
  | nil => simp
  | cons c cs ih => simp [ih, Nat.add_assoc]

theorem length_le_size (text : List Char) : text.length ≤ size text := by
  induction text with
  | nil => simp
  | cons c cs ih =>
    have := c.utf8Size_pos
    simp only [List.length_cons, size_cons]
    omega

theorem size_eq_zero {text : List Char} : size text = 0 ↔ text = [] := by
  cases text with
  | nil => simp
  | cons c cs =>
    have := c.utf8Size_pos
    simp only [size_cons, reduceCtorEq, iff_false]
    omega

/-- The first `n` bytes of a text and the rest, if a character ends there. -/
def splitBytes? : Nat → List Char → Option (List Char × List Char)
  | 0, text => some ([], text)
  | _ + 1, [] => none
  | n + 1, c :: cs =>
    if c.utf8Size ≤ n + 1 then
      (splitBytes? (n + 1 - c.utf8Size) cs).map fun (first, rest) => (c :: first, rest)
    else none

theorem append_of_splitBytes? {n : Nat} {text first rest : List Char}
    (h : splitBytes? n text = some (first, rest)) : text = first ++ rest ∧ size first = n := by
  induction text generalizing n first with
  | nil =>
    cases n with
    | zero => simp_all [splitBytes?]
    | succ n => simp [splitBytes?] at h
  | cons c cs ih =>
    cases n with
    | zero => simp_all [splitBytes?]
    | succ n =>
      simp only [splitBytes?, Option.ite_none_right_eq_some, Option.map_eq_some_iff,
        Prod.mk.injEq, Prod.exists] at h
      obtain ⟨hc, f, r, hs, rfl, rfl⟩ := h
      obtain ⟨rfl, hsize⟩ := ih hs
      refine ⟨rfl, ?_⟩
      simp only [size_cons, hsize]
      omega

theorem splitBytes?_append (first rest : List Char) :
    splitBytes? (size first) (first ++ rest) = some (first, rest) := by
  induction first with
  | nil => simp [splitBytes?]
  | cons c cs ih =>
    have := c.utf8Size_pos
    obtain ⟨n, hn⟩ : ∃ n, size (c :: cs) = n + 1 := ⟨size (c :: cs) - 1, by simp; omega⟩
    have hsub : n + 1 - c.utf8Size = size cs := by rw [← hn, size_cons]; omega
    have hle : c.utf8Size ≤ n + 1 := by rw [← hn, size_cons]; omega
    rw [hn, List.cons_append, splitBytes?, if_pos hle, hsub, ih]
    rfl

end DashboardMarkup.Text

namespace DashboardMarkup

/-- The bytes from offset `start` up to offset `stop`. -/
structure Span where
  start : Nat
  stop : Nat
  deriving DecidableEq, Repr

namespace Span

/-- The text that a span covers, if its ends are in order, inside the text and between characters. -/
def cut? (span : Span) (text : List Char) : Option (List Char) := do
  let (_, rest) ← Text.splitBytes? span.start text
  if span.stop < span.start then none
  else
    let (covered, _) ← Text.splitBytes? (span.stop - span.start) rest
    return covered

theorem cut?_append (a b c : List Char) :
    Span.cut? ⟨Text.size a, Text.size a + Text.size b⟩ (a ++ (b ++ c)) = some b := by
  simp only [cut?, Text.splitBytes?_append, Option.bind_eq_bind, Option.bind_some]
  rw [if_neg (by omega), Nat.add_sub_cancel_left, Text.splitBytes?_append]
  rfl

/-- The parts of a span outside all holes. The holes are taken in the order given, and a cursor
moves to the end of each, so that holes sorted by their start are removed exactly. -/
def without (range : Span) : List Span → List Span
  | [] => if range.start < range.stop then [range] else []
  | hole :: holes =>
    if hole.stop ≤ range.start || range.stop ≤ hole.start then range.without holes
    else
      let rest := Span.without ⟨max range.start hole.stop, range.stop⟩ holes
      if range.start < hole.start then ⟨range.start, hole.start⟩ :: rest else rest

variable {range hole : Span} {holes : List Span}

/-- A hole beyond the span, or behind the cursor, changes nothing. -/
theorem without_cons_of_apart (h : hole.stop ≤ range.start ∨ range.stop ≤ hole.start) :
    range.without (hole :: holes) = range.without holes := by
  rw [without, if_pos (by simpa using h)]

/-- Any other hole leaves what stands before it, if anything does, and moves the cursor to its end. -/
theorem without_cons_of_meets (hstop : range.start < hole.stop) (hstart : hole.start < range.stop) :
    range.without (hole :: holes) =
      (if range.start < hole.start then [⟨range.start, hole.start⟩] else []) ++
        Span.without ⟨hole.stop, range.stop⟩ holes := by
  rw [without, if_neg (by simp only [Bool.or_eq_true, decide_eq_true_eq]; omega), Nat.max_eq_right (Nat.le_of_lt hstop)]
  split
  · rfl
  · rfl

/-- The two cases of a hole. -/
theorem apart_or_meets (range hole : Span) :
    (hole.stop ≤ range.start ∨ range.stop ≤ hole.start) ∨ range.start < hole.stop ∧ hole.start < range.stop := by
  omega

end Span

end DashboardMarkup
