import DashboardMarkup.Proofs.Template.Spelling

/-!
# What a template means

A template is put together from pieces: texts, assignments, outputs and other things between double braces.
Its meaning is said piece by piece: a text and what is no output stand for themselves, an assignment stands
for nothing, and an output for the value that its name is given last in the whole template, before the output
or behind it. A resolved template is what its pieces mean, one after the other; no value is looked through
again, whatever marks it holds.

* `assignments_pieces`, `withoutAssignments_pieces`: what the first pass finds and what it leaves.
* `outputs_pieces`: what the second pass makes of that.
* `resolve_pieces`: a template is resolved to its meaning.
-/

namespace DashboardMarkup.Template

open Text

/-! ## Pieces -/

/-- What stands between double braces, with the braces. -/
def moustache (body : List Char) : List Char :=
  (Segment.tag body).source outputMarks

/-- **A piece of a template.** -/
inductive Piece
  /-- Text without opening marks, also together with what follows. -/
  | text (chars : List Char) (untagged : Untagged chars) (last : '\x7b' ∉ chars.getLast?)
  /-- An assignment, without a closing mark in its literal. -/
  | assign (sides : Sides) (assignment : WrittenAssignment)
      (closed : Lacks '%' '\x7d' assignment.literal.value)
  /-- An output, without a closing mark or the opening mark of an assignment in its default. -/
  | output (sides : Sides) (output : WrittenOutput)
      (closed : ∀ d ∈ output.default?, Lacks '\x7d' '\x7d' d.2.literal.value)
      (untagged : ∀ d ∈ output.default?, Lacks '\x7b' '%' d.2.literal.value)
  /-- Anything between double braces that is not an output, without such marks in it. -/
  | other (body : List Char) (notVariable : ¬ IsVariable body)
      (closed : Lacks '\x7d' '\x7d' (body ++ ['\x7d']))
      (untagged : Lacks '\x7b' '%' (moustache body))

namespace Piece

/-- A piece as it is written. -/
def source : Piece → List Char
  | text chars _ _ => chars
  | assign sides a _ => (Segment.tag (sides.wrap a.source)).source assignMarks
  | output sides o _ _ => moustache (sides.wrap o.source)
  | other body _ _ _ => moustache body

/-- The value that a piece gives a name. -/
def valueFor? (name : List Char) : Piece → Option (List Char)
  | assign _ a _ => if a.name.chars = name then some a.literal.value else none
  | _ => none

/-- **The value that a name is given last.** -/
def lastValue? (name : List Char) : List Piece → Option (List Char)
  | [] => none
  | piece :: rest => (lastValue? name rest).or (piece.valueFor? name)

/-- **What a piece of a template means.** -/
def meaning (template : List Piece) : Piece → List Char
  | text chars _ _ => chars
  | assign _ _ _ => []
  | output _ o _ _ =>
    ((lastValue? o.name.chars template).or (o.default?.map fun d => d.2.literal.value)).getD []
  | other body _ _ _ => moustache body

/-- The assignment that a piece is. -/
def assignment? : Piece → Option Assignment
  | assign _ a _ => some a.meant
  | _ => none

/-- What is left of a piece without assignments. -/
def kept : Piece → List Char
  | assign _ _ _ => []
  | piece => piece.source

end Piece

/-! ## Where tags begin and end -/

section

variable {a b : Char}

/-- A text in which a mark neither stands nor begins at the end. -/
structure Without (a b : Char) (text : List Char) : Prop where
  lacks : Lacks a b text
  last : a ∉ text.getLast?

namespace Without

variable {s t : List Char}

theorem nil : Without a b [] :=
  ⟨.nil, by simp⟩

theorem append (hs : Without a b s) (ht : Without a b t) : Without a b (s ++ t) := by
  refine ⟨Lacks.append_iff.mpr ⟨hs.lacks, ht.lacks, fun _ hc _ _ heq => absurd (heq ▸ hc) hs.last⟩, ?_⟩
  rw [List.getLast?_append]
  cases hlast : t.getLast? with
  | none => simpa [hlast] using hs.last
  | some c => simpa [hlast] using ht.last

/-- What follows does not make a mark of the end of the text. -/
theorem lacks_append (hs : Without a b s) (ht : Lacks a b t) : Lacks a b (s ++ t) :=
  Lacks.append_iff.mpr ⟨hs.lacks, ht, fun _ hc _ _ heq => absurd (heq ▸ hc) hs.last⟩

end Without

variable {marks : Marks}

/-- **A text without opening marks is one segment.** -/
theorem segments_of_lacks (ho : marks.opener = [a, b]) {text : List Char} (h : Lacks a b text) :
    segments marks text = [.plain text] := by
  rw [segments]
  split
  · rfl
  · next hcut =>
    rw [ho, cut?_of_lacks h] at hcut
    exact absurd hcut (by simp)

/-- **The first tag of a text**: it begins behind a text without opening marks and ends where it is closed. -/
theorem segments_tag {c d : Char} (ho : marks.opener = [a, b]) (hc : marks.closer = [c, d])
    {front body : List Char} (hfront : Without a b front) (hbody : Lacks c d (body ++ [c])) (rest : List Char) :
    segments marks (front ++ ((Segment.tag body).source marks ++ rest)) =
      .plain front :: .tag body :: segments marks rest := by
  have hopen : cut? marks.opener (front ++ ((Segment.tag body).source marks ++ rest)) =
      some (front, body ++ c :: d :: rest) := by
    have hpair := cut?_pair (hfront.lacks_append (List.isChain_singleton a)) (body ++ c :: d :: rest)
    simpa [Segment.source, ho, hc] using hpair
  have hclose : cut? marks.closer (body ++ c :: d :: rest) = some (body, rest) := by
    rw [hc]
    exact cut?_pair hbody rest
  rw [segments]
  split
  · next hnone => exact absurd (hopen.symm.trans hnone) (by simp)
  · next before after hsome =>
    obtain ⟨rfl, rfl⟩ := Prod.mk.inj (Option.some.inj (hopen.symm.trans hsome))
    split
    · next hnone => exact absurd (hclose.symm.trans hnone) (by simp)
    · next hsome =>
      obtain ⟨rfl, rfl⟩ := Prod.mk.inj (Option.some.inj (hclose.symm.trans hsome))
      rfl

end

section

variable {front body : List Char} {a : Assignment}

/-- An assignment is found before those behind it. -/
theorem assignments_tag (hfront : Without '\x7b' '%' front) (hbody : Lacks '%' '\x7d' (body ++ ['%']))
    (hread : Assignment.ofBody? (trimHyphens body) = some a) (rest : List Char) :
    assignments (front ++ ((Segment.tag body).source assignMarks ++ rest)) = a :: assignments rest := by
  unfold assignments
  rw [segments_tag rfl rfl hfront hbody]
  simp only [List.filterMap_cons, Segment.assignment?, hread]

/-- An assignment is taken out. -/
theorem withoutAssignments_tag (hfront : Without '\x7b' '%' front) (hbody : Lacks '%' '\x7d' (body ++ ['%']))
    (hread : Assignment.ofBody? (trimHyphens body) = some a) (rest : List Char) :
    withoutAssignments (front ++ ((Segment.tag body).source assignMarks ++ rest)) =
      front ++ withoutAssignments rest := by
  unfold withoutAssignments
  rw [segments_tag rfl rfl hfront hbody]
  simp [Segment.assignment?, hread, Segment.source]

end

/-! ## Expressions without marks -/

/-- The characters that marks are made of. -/
def IsMark (c : Char) : Prop :=
  c = '\x7b' ∨ c = '\x7d' ∨ c = '%'

section

variable {a b : Char}

theorem IsMark.not_mem_hyphen (ha : IsMark a) (written : Bool) : a ∉ hyphen written := by
  rcases ha with rfl | rfl | rfl <;> cases written <;> decide

theorem IsMark.not_mem_gap (ha : IsMark a) (gap : Gap) : a ∉ gap.chars := by
  intro hmem
  have hplain := gap.plain a hmem
  rcases ha with rfl | rfl | rfl <;> exact absurd hplain (by decide)

theorem IsMark.not_mem_name (ha : IsMark a) (name : Name) : a ∉ name.chars := by
  intro hmem
  have hchar := name.char a hmem
  rcases ha with rfl | rfl | rfl <;> exact absurd hchar (by decide)

theorem IsMark.not_isQuote (ha : IsMark a) : ¬ IsQuote a := by
  rcases ha with rfl | rfl | rfl <;> unfold IsQuote <;> decide

theorem Literal.lacks_source (ha : IsMark a) (hb : IsMark b) {literal : Literal}
    (h : Lacks a b literal.value) : Lacks a b literal.source := by
  cases literal with
  | quoted quote hquote text _ =>
    have hne : ∀ {c}, IsMark c → quote ≠ c := fun hc heq => hc.not_isQuote (heq ▸ hquote)
    have hclose : Lacks a b (text ++ [quote]) :=
      Lacks.append_of_second h (List.isChain_singleton quote) (by simpa using hne hb)
    exact Lacks.append_of_first (s := [quote]) (by simpa using (hne ha).symm) hclose
  | bare text _ _ _ => exact h

theorem WrittenAssignment.lacks_source (ha : IsMark a) (hb : IsMark b) {assignment : WrittenAssignment}
    (h : Lacks a b assignment.literal.value) : Lacks a b assignment.source := by
  have hword : a ∉ "assign".toList := by
    rcases ha with rfl | rfl | rfl <;> decide
  have hsign : a ∉ ['='] := by
    rcases ha with rfl | rfl | rfl <;> decide
  exact .append_of_first hword <| .append_of_first (ha.not_mem_gap _) <| .append_of_first (ha.not_mem_name _) <|
    .append_of_first (ha.not_mem_gap _) <| .append_of_first (s := ['=']) hsign <|
    .append_of_first (ha.not_mem_gap _) <| Literal.lacks_source ha hb h

theorem WrittenOutput.lacks_source (ha : IsMark a) (hb : IsMark b) {output : WrittenOutput}
    (h : ∀ d ∈ output.default?, Lacks a b d.2.literal.value) : Lacks a b output.source := by
  refine .append_of_first (ha.not_mem_name _) ?_
  cases hdefault : output.default? with
  | none => exact .nil
  | some d =>
    have hbar : a ∉ ['|'] := by
      rcases ha with rfl | rfl | rfl <;> decide
    have hword : a ∉ "default".toList := by
      rcases ha with rfl | rfl | rfl <;> decide
    have hcolon : a ∉ [':'] := by
      rcases ha with rfl | rfl | rfl <;> decide
    exact .append_of_first (ha.not_mem_gap _) <| .append_of_first (s := ['|']) hbar <|
      .append_of_first (ha.not_mem_gap _) <| .append_of_first hword <| .append_of_first (ha.not_mem_gap _) <|
      .append_of_first (s := [':']) hcolon <| .append_of_first (ha.not_mem_gap _) <|
      Literal.lacks_source ha hb (h d hdefault)

/-- A tag begins with a blank or a hyphen. -/
theorem IsMark.not_mem_head_wrap (ha : IsMark a) (sides : Sides) (expression : List Char) :
    a ∉ (sides.wrap expression).head? := by
  obtain ⟨c, rest, hbefore, hc⟩ := sides.before.exists_cons
  have hne : c ≠ a := fun heq => ha.not_mem_gap sides.before.toGap (by rw [hbefore, heq]; exact List.mem_cons_self)
  have hhyphen : '-' ≠ a := by
    rcases ha with rfl | rfl | rfl <;> decide
  cases hwritten : sides.hyphenBefore <;> simpa [Sides.wrap, hwritten, hyphen, hbefore]

/-- Behind its expression a tag ends with blanks, and a hyphen perhaps. -/
theorem Sides.lacks_wrap (ha : IsMark a) (hb : IsMark b) (sides : Sides) {expression after : List Char}
    (h : Lacks a b expression) (hafter : Lacks a b after) : Lacks a b (sides.wrap expression ++ after) := by
  obtain ⟨c, rest, hbehind, -⟩ := sides.behind.exists_cons
  have hend : Lacks a b (sides.behind.chars ++ (hyphen sides.hyphenBehind ++ after)) :=
    .append_of_first (ha.not_mem_gap _) (.append_of_first (ha.not_mem_hyphen _) hafter)
  have hexpression : Lacks a b (expression ++ (sides.behind.chars ++ (hyphen sides.hyphenBehind ++ after))) := by
    refine .append_of_second h hend fun hmem => hb.not_mem_gap sides.behind.toGap ?_
    rw [hbehind] at hmem ⊢
    exact Option.some.inj hmem ▸ List.mem_cons_self
  have hwrap : sides.wrap expression ++ after = hyphen sides.hyphenBefore ++ (sides.before.chars ++
      (expression ++ (sides.behind.chars ++ (hyphen sides.hyphenBehind ++ after)))) := by
    simp only [Sides.wrap, List.append_assoc]
  rw [hwrap]
  exact .append_of_first (ha.not_mem_hyphen _) (.append_of_first (ha.not_mem_gap _) hexpression)

end

/-! ## The two passes -/

namespace Piece

/-- What is kept of a piece holds no opening mark of an assignment. -/
theorem without_kept (piece : Piece) : Without '\x7b' '%' piece.kept := by
  have hlast : ∀ body, '\x7b' ∉ (moustache body).getLast? := by
    intro body
    have hend : moustache body = (['\x7b', '\x7b'] ++ body ++ ['\x7d']) ++ ['\x7d'] := by
      simp [moustache, Segment.source, outputMarks]
    rw [hend, List.getLast?_concat]
    decide
  cases piece with
  | text chars untagged last => exact ⟨untagged.lacks (.inr rfl), last⟩
  | assign sides a closed => exact .nil
  | output sides o closed untagged =>
    refine ⟨?_, hlast _⟩
    have hbrace : IsMark '\x7b' := .inl rfl
    have hpercent : IsMark '%' := .inr (.inr rfl)
    have hbody : Lacks '\x7b' '%' (sides.wrap o.source ++ ['\x7d', '\x7d']) :=
      sides.lacks_wrap hbrace hpercent (WrittenOutput.lacks_source hbrace hpercent untagged) (by decide)
    have hopen : Lacks '\x7b' '%' (['\x7b', '\x7b'] ++ (sides.wrap o.source ++ ['\x7d', '\x7d'])) := by
      refine Lacks.append_iff.mpr ⟨by decide, hbody, fun _ _ d hd _ heq => ?_⟩
      have hne : sides.wrap o.source ≠ [] := by
        obtain ⟨c, rest, hbefore, -⟩ := sides.before.exists_cons
        simp [Sides.wrap, hbefore]
      rw [List.head?_append_of_ne_nil _ hne, heq] at hd
      exact hpercent.not_mem_head_wrap sides o.source hd
    exact hopen
  | other body notVariable closed untagged => exact ⟨untagged, hlast body⟩

end Piece

/-- A piece is kept, or it is an assignment. -/
theorem Piece.kept_or_assign (piece : Piece) :
    (piece.source = piece.kept ∧ piece.assignment? = none) ∨
      ∃ sides a closed, piece = .assign sides a closed := by
  cases piece with
  | assign sides a closed => exact .inr ⟨sides, a, closed, rfl⟩
  | text | output | other => exact .inl ⟨rfl, rfl⟩

/-- **The first pass** takes the assignments out, in order, and leaves all else. -/
theorem assignments_pieces (template : List Piece) {front : List Char} (hfront : Without '\x7b' '%' front) :
    assignments (front ++ template.flatMap Piece.source) = template.filterMap Piece.assignment? ∧
      withoutAssignments (front ++ template.flatMap Piece.source) = front ++ template.flatMap Piece.kept := by
  induction template generalizing front with
  | nil =>
    have hplain : segments assignMarks front = [.plain front] := segments_of_lacks rfl hfront.lacks
    simp [assignments, withoutAssignments, hplain, Segment.assignment?, Segment.source]
  | cons piece rest ih =>
    rcases piece.kept_or_assign with ⟨hkept, hnone⟩ | ⟨sides, a, closed, rfl⟩
    · -- a piece that is kept is passed over together with what stands before it
      have hpassed := ih (hfront.append piece.without_kept)
      rw [List.filterMap_cons_none hnone, List.flatMap_cons, List.flatMap_cons, hkept, ← List.append_assoc,
        ← List.append_assoc]
      exact hpassed
    · have hpercent : IsMark '%' := .inr (.inr rfl)
      have hbrace : IsMark '\x7d' := .inr (.inl rfl)
      have hbody : Lacks '%' '\x7d' (sides.wrap a.source ++ ['%']) :=
        sides.lacks_wrap hpercent hbrace (WrittenAssignment.lacks_source hpercent hbrace closed) (by decide)
      have hread : Assignment.ofBody? (trimHyphens (sides.wrap a.source)) = some a.meant := by
        rw [trimHyphens_wrap]
        exact ofBody?_assignment a sides.before.toGap sides.behind.toGap
      obtain ⟨hassignments, hwithout⟩ := ih .nil
      constructor
      · refine (assignments_tag hfront hbody hread (rest.flatMap Piece.source)).trans ?_
        exact congrArg (a.meant :: ·) hassignments
      · refine (withoutAssignments_tag hfront hbody hread (rest.flatMap Piece.source)).trans ?_
        exact congrArg (front ++ ·) hwithout

/-- What is between double braces is put for by its text. -/
theorem outputs_tag {known : List Assignment} {front body : List Char} (hfront : Without '\x7b' '\x7b' front)
    (hbody : Lacks '\x7d' '\x7d' (body ++ ['\x7d'])) (rest : List Char) :
    (segments outputMarks (front ++ (moustache body ++ rest))).flatMap (Segment.resolve known) =
      front ++ ((Segment.tag body).resolve known ++
        (segments outputMarks rest).flatMap (Segment.resolve known)) := by
  unfold moustache
  rw [segments_tag rfl rfl hfront hbody]
  rfl

/-- **The second pass** puts values for the outputs, and leaves all else. -/
theorem outputs_pieces {known : List Assignment} {template : List Piece}
    (hknown : ∀ name, lookup? known name = Piece.lastValue? name template) (rest : List Piece)
    {front : List Char} (hfront : Without '\x7b' '\x7b' front) :
    (segments outputMarks (front ++ rest.flatMap Piece.kept)).flatMap (Segment.resolve known) =
      front ++ rest.flatMap (Piece.meaning template) := by
  induction rest generalizing front with
  | nil =>
    have hplain : segments outputMarks front = [.plain front] := segments_of_lacks rfl hfront.lacks
    simp [hplain, Segment.resolve]
  | cons piece rest ih =>
    rw [List.flatMap_cons, List.flatMap_cons]
    cases piece with
    | text chars untagged last =>
      have htext := ih (hfront.append ⟨untagged.lacks (.inl rfl), last⟩)
      rw [List.append_assoc, List.append_assoc] at htext
      exact htext
    | assign sides a closed => exact ih hfront
    | output sides o closed untagged =>
      have hbrace : IsMark '\x7d' := .inr (.inl rfl)
      have hbody : Lacks '\x7d' '\x7d' (sides.wrap o.source ++ ['\x7d']) :=
        sides.lacks_wrap hbrace hbrace (WrittenOutput.lacks_source hbrace hbrace closed) (by decide)
      have hread : Output.ofBody? (trimHyphens (sides.wrap o.source)) = some o.meant := by
        rw [trimHyphens_wrap]
        exact ofBody?_output o sides.before.toGap sides.behind.toGap
      have htext : (Segment.tag (sides.wrap o.source)).resolve known =
          (Piece.output sides o closed untagged).meaning template := by
        simp only [Segment.resolve, hread, Output.text, WrittenOutput.meant, hknown, Piece.meaning]
      refine (outputs_tag hfront hbody (rest.flatMap Piece.kept)).trans ?_
      have hrest := ih .nil
      rw [List.nil_append, List.nil_append] at hrest
      rw [htext, hrest]
    | other body notVariable closed untagged =>
      have hread : Output.ofBody? (trimHyphens body) = none :=
        Option.not_isSome_iff_eq_none.mp fun hread => notVariable (isVariable_iff.mpr hread)
      have htext : (Segment.tag body).resolve known = moustache body := by
        simp only [Segment.resolve, hread, moustache]
      refine (outputs_tag hfront closed (rest.flatMap Piece.kept)).trans ?_
      have hrest := ih .nil
      rw [List.nil_append, List.nil_append] at hrest
      rw [htext, hrest]
      rfl

/-! ## The whole template -/

theorem lookup?_cons (a : Assignment) (known : List Assignment) (name : List Char) :
    lookup? (a :: known) name = (lookup? known name).or (if a.name = name then some a.value else none) := by
  unfold lookup?
  rw [List.reverse_cons, List.find?_append]
  cases hlast : known.reverse.find? (fun b => b.name == name) with
  | some b => simp
  | none => by_cases hname : a.name = name <;> simp [hname]

/-- **The last assignment counts.** -/
theorem lookup?_pieces (template : List Piece) (name : List Char) :
    lookup? (template.filterMap Piece.assignment?) name = Piece.lastValue? name template := by
  induction template with
  | nil => rfl
  | cons piece rest ih =>
    cases piece with
    | assign sides a closed =>
      rw [Piece.lastValue?, ← ih]
      exact lookup?_cons a.meant _ name
    | text | output | other =>
      rw [Piece.lastValue?, ← ih]
      exact Option.or_none.symm

/-- **A template is resolved to its meaning.** -/
theorem resolve_pieces (template : List Piece) :
    resolve (template.flatMap Piece.source) = template.flatMap (Piece.meaning template) := by
  obtain ⟨hassignments, hwithout⟩ := assignments_pieces template .nil
  rw [List.nil_append] at hassignments hwithout
  unfold resolve
  rw [hassignments, hwithout]
  exact outputs_pieces (lookup?_pieces template) template .nil

end DashboardMarkup.Template
