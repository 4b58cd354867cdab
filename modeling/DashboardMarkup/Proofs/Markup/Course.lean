import DashboardMarkup.Proofs.Markup.Opens
import Mathlib.Logic.Relation

/-!
# The course of a search

A search goes through its text once, from left to right, and back only behind an open tag whose close tag it has not
found. `Stage` says where it stands, and `Stage.Step` how it goes on: it jumps over comments, passes what begins no
tag that it is after, and pairs the tags of one name by counting. The definitions of `scan` and `findClose` take many
steps at once.

* `fails_of_step`, `fails_of_comes`: no step changes whether, and how, a search fails.
* `ends_findClose`, `endsStuck_of_scan`: a search for a close tag that succeeds leaves its element, and a search that
  fails has come to an open tag that has no end.
* `find_eq_error_iff`: so a search in a document fails exactly if it comes to one, and tells where it is.
* `find_structure`: with what is known of the elements that a search gives, in any document.
-/

namespace DashboardMarkup.Markup

open Text

/-! ## The end of an open tag -/

/-- The quote that is open behind a character. -/
def quoteBehind (quote : Option Char) (c : Char) : Option Char :=
  match quote with
  | some q => if c == q then none else some q
  | none => if c == '"' || c == '\'' then some c else none

/-- **An open tag has no end**: each `>` in the text behind its name stands in quotes. -/
def Endless (text : List Char) : Prop :=
  ∀ front rest, text = front ++ '>' :: rest → front.foldl quoteBehind none ≠ none

theorem cutTag?_eq_none_iff {quote : Option Char} {text : List Char} :
    cutTag? quote text = none ↔
      ∀ front rest, text = front ++ '>' :: rest → front.foldl quoteBehind quote ≠ none := by
  induction text generalizing quote with
  | nil => simp [cutTag?]
  | cons c cs ih =>
    -- a `>` in the rest of the text has one more character before it
    have hrest : (∀ front rest, c :: cs = front ++ '>' :: rest → front.foldl quoteBehind quote ≠ none) ↔
        (c = '>' → quote ≠ none) ∧
          ∀ front rest, cs = front ++ '>' :: rest → front.foldl quoteBehind (quoteBehind quote c) ≠ none := by
      constructor
      · refine fun h => ⟨fun hc => h [] cs (by rw [hc, List.nil_append]), fun front rest hcs => ?_⟩
        exact h (c :: front) rest (by rw [hcs, List.cons_append])
      · rintro ⟨hhere, hmore⟩ front rest hsplit
        cases front with
        | nil => exact hhere (List.cons.inj hsplit).1
        | cons d front =>
          obtain ⟨rfl, hcs⟩ := List.cons.inj hsplit
          exact hmore front rest hcs
    rw [hrest, ← ih]
    cases quote with
    | some q => simp [cutTag?, quoteBehind]
    | none =>
      by_cases hc : c = '>'
      · simp [cutTag?, hc]
      · simp [cutTag?, hc, quoteBehind]

theorem finish?_eq_none_iff {text : List Char} : finish? text = none ↔ Endless text := by
  unfold finish? Endless
  rw [Option.map_eq_none_iff]
  exact cutTag?_eq_none_iff

/-! ## Stages and steps -/

/-- Where a search stands, with the text that it has not looked at: outside the elements that it is after, or inside
one of a name, whose content and all that follows is `content`, with `depth` more of its name open. -/
inductive Stage
  | outside (left : List Char)
  | inside (name : String) (content : List Char) (depth : Nat) (left : List Char)

namespace Stage

/-- The text that is left. -/
def left : Stage → List Char
  | outside left => left
  | inside _ _ _ left => left

/-- The same stage further on in the text. -/
def onward (rest : List Char) : Stage → Stage
  | outside _ => outside rest
  | inside name content depth _ => inside name content depth rest

/-- The names whose open tags matter: inside an element, its own. -/
def sought (names : List String) : Stage → List String
  | outside _ => names
  | inside name _ _ _ => [name]

/-- A close tag that matters begins here. -/
def Closes : Stage → Prop
  | outside _ => False
  | inside name _ _ left => (closing? name left).isSome

variable (names : List String)

/-- An open tag of a name that matters begins here, outside comments, with some text behind the name. -/
structure Opening (s : Stage) (name : String) (tail : List Char) : Prop where
  comment : comment? s.left = none
  closes : ¬s.Closes
  opening : opening? (s.sought names) s.left = some (name, tail)

/-- **One step of a search.** -/
inductive Step : Stage → Stage → Prop
  /-- A comment is jumped over. -/
  | comment {s : Stage} {rest : List Char} (comment : comment? s.left = some rest) : Step s (s.onward rest)
  /-- A character is passed where no comment begins, and no tag that matters. -/
  | pass {s : Stage} {c : Char} {rest : List Char} (left : s.left = c :: rest) (comment : comment? s.left = none)
      (closes : ¬s.Closes) (opening : opening? (s.sought names) s.left = none) : Step s (s.onward rest)
  /-- So is an open tag that closes itself. -/
  | single {s : Stage} {name : String} {tail rest : List Char} {tag : OpenTag} (opening : s.Opening names name tail)
      (finish : finish? tail = some (tag, rest)) (single : tag.selfClosing = true) : Step s (s.onward rest)
  /-- Any other open tag begins an element. -/
  | enter {text : List Char} {name : String} {tail rest : List Char} {tag : OpenTag}
      (opening : (outside text).Opening names name tail) (finish : finish? tail = some (tag, rest))
      (paired : tag.selfClosing = false) : Step (outside text) (inside name rest 0 rest)
  /-- Inside an element of its name it is counted. -/
  | deepen {name name' : String} {content text tail rest : List Char} {depth : Nat} {tag : OpenTag}
      (opening : (inside name content depth text).Opening names name' tail) (finish : finish? tail = some (tag, rest))
      (paired : tag.selfClosing = false) : Step (inside name content depth text) (inside name content (depth + 1) rest)
  /-- A close tag closes the element that was opened last. -/
  | close {name : String} {content text : List Char} {depth : Nat} (comment : comment? text = none)
      (closes : (closing? name text).isSome) :
      Step (inside name content (depth + 1) text) (inside name content depth (behindTag text))
  /-- The close tag of the element itself. -/
  | leave {name : String} {content text : List Char} (comment : comment? text = none)
      (closes : (closing? name text).isSome) : Step (inside name content 0 text) (outside (behindTag text))
  /-- There is none, and the search goes on behind the open tag. -/
  | giveUp {name : String} {content : List Char} {depth : Nat} :
      Step (inside name content depth []) (outside content)

/-- **A search comes from one stage to another** by some steps. -/
abbrev Comes : Stage → Stage → Prop :=
  Relation.ReflTransGen (Step names)

/-- **A search is stuck** at an open tag of a name that matters, outside comments, that has no end. -/
def Stuck (s : Stage) (name : String) : Prop :=
  ∃ tail, s.Opening names name tail ∧ Endless tail

variable {names}

theorem Comes.trans_step {s t u : Stage} (hstep : Step names s t) (h : Comes names t u) : Comes names s u :=
  Relation.ReflTransGen.head hstep h

/-! ## What a step does not change -/

variable {limit : Nat} {fault : Fault}

/-- Where a search goes on that has looked for a close tag: behind it or, if there is none, behind the open tag. -/
def resume (content : List Char) : Option (List Char × List Char) → List Char
  | some (_, behind) => behind
  | none => content

/-- What a search in a text up to `limit` that has come to a stage still finds. -/
def remaining (limit : Nat) (names : List String) : Stage → Except Fault (List Element)
  | outside left => scan limit names left
  | inside name content depth left =>
    (findClose limit name depth left).bind fun found => scan limit names (resume content found)

/-- A search that has come to a stage fails with a fault. -/
def Fails (limit : Nat) (names : List String) (fault : Fault) (s : Stage) : Prop :=
  s.remaining limit names = .error fault

theorem fails_outside {left : List Char} :
    (outside left).Fails limit names fault ↔ scan limit names left = .error fault :=
  Iff.rfl

theorem fails_inside {name : String} {content left : List Char} {depth : Nat} :
    (inside name content depth left).Fails limit names fault ↔
      ((findClose limit name depth left).bind fun found => scan limit names (resume content found)) = .error fault :=
  Iff.rfl

theorem closing?_eq_none {name : String} {content left : List Char} {depth : Nat}
    (h : ¬(inside name content depth left).Closes) : closing? name left = none :=
  Option.not_isSome_iff_eq_none.mp h

/-- What comes of an open tag is what comes of the search for its close tag. -/
theorem fails_enter {text : List Char} {name : String} {tail rest : List Char} {tag : OpenTag}
    (hopening : (outside text).Opening names name tail) (hfinish : finish? tail = some (tag, rest))
    (hpaired : tag.selfClosing = false) :
    (outside text).Fails limit names fault ↔ (inside name rest 0 rest).Fails limit names fault := by
  obtain ⟨hcomment, -, hopens⟩ := hopening
  change comment? text = none at hcomment
  change opening? names text = some (name, tail) at hopens
  rw [fails_outside, fails_inside]
  cases text with
  | nil => exact absurd hopens (by simp [opening?])
  | cons c cs =>
    rw [scan_cons, hcomment, hopens]
    simp only [hfinish, hpaired, Bool.false_eq_true, if_false]
    cases findClose limit name 0 rest with
    | error other => rfl
    | ok found =>
      cases found with
      | none => exact exceptMap_eq_error
      | some pair => exact exceptMap_eq_error

/-- Inside an element an open tag of its name that has an end is behind the search. -/
theorem findClose_of_opening {name name' : String} {content text tail rest : List Char} {depth : Nat} {tag : OpenTag}
    (hopening : (inside name content depth text).Opening names name' tail)
    (hfinish : finish? tail = some (tag, rest)) :
    findClose limit name depth text = findClose limit name (if tag.selfClosing then depth else depth + 1) rest :=
  findClose_opening hopening.comment (closing?_eq_none hopening.closes) hopening.opening hfinish

/-- **No step changes whether, and how, a search fails.** -/
theorem fails_of_step {s t : Stage} (h : Step names s t) : s.Fails limit names fault ↔ t.Fails limit names fault := by
  cases h with
  | @comment s rest hcomment =>
    cases s with
    | outside text =>
      have hscan : scan limit names text = scan limit names rest := scan_comment hcomment
      rw [onward, fails_outside, fails_outside, hscan]
    | inside name content depth text =>
      have hclose : findClose limit name depth text = findClose limit name depth rest := findClose_comment hcomment
      rw [onward, fails_inside, fails_inside, hclose]
  | @pass s c rest hleft hcomment hcloses hopening =>
    cases s with
    | outside text =>
      obtain rfl : text = c :: rest := hleft
      have hscan : scan limit names (c :: rest) = scan limit names rest := scan_skip hcomment hopening
      rw [onward, fails_outside, fails_outside, hscan]
    | inside name content depth text =>
      obtain rfl : text = c :: rest := hleft
      have hclose : findClose limit name depth (c :: rest) = findClose limit name depth rest :=
        findClose_skip hcomment (closing?_eq_none hcloses) hopening
      rw [onward, fails_inside, fails_inside, hclose]
  | @single s name tail rest tag hopening hfinish hsingle =>
    cases s with
    | outside text =>
      rw [onward, fails_outside, fails_outside,
        @scan_single limit names name text tail rest tag hopening.comment hopening.opening hfinish hsingle]
      exact exceptMap_eq_error
    | inside own content depth text =>
      rw [onward, fails_inside, fails_inside, findClose_of_opening hopening hfinish, if_pos hsingle]
  | enter hopening hfinish hpaired => exact fails_enter hopening hfinish hpaired
  | deepen hopening hfinish hpaired =>
    rw [fails_inside, fails_inside, findClose_of_opening hopening hfinish, if_neg (by simp [hpaired])]
  | close hcomment hcloses =>
    obtain ⟨tail, htail⟩ := Option.isSome_iff_exists.mp hcloses
    rw [fails_inside, fails_inside, findClose_closing_inside hcomment htail]
  | leave hcomment hcloses =>
    obtain ⟨tail, htail⟩ := Option.isSome_iff_exists.mp hcloses
    rw [fails_inside, fails_outside, findClose_closing hcomment htail]
    rfl
  | giveUp =>
    rw [fails_inside, fails_outside, findClose_nil]
    rfl

/-- **So does no run of steps.** -/
theorem fails_of_comes {s t : Stage} (h : Comes names s t) :
    s.Fails limit names fault ↔ t.Fails limit names fault := by
  induction h with
  | refl => exact Iff.rfl
  | tail _ hstep ih => exact ih.trans (fails_of_step hstep)

/-- **Where a search is stuck it fails**, and tells of the tag. -/
theorem fails_of_stuck {s : Stage} {name : String} (h : s.Stuck names name) :
    s.Fails limit names (.unterminated name (limit - size s.left)) := by
  obtain ⟨tail, ⟨hcomment, hcloses, hopening⟩, hend⟩ := h
  have hfinish := finish?_eq_none_iff.mpr hend
  cases s with
  | outside text =>
    change comment? text = none at hcomment
    change opening? names text = some (name, tail) at hopening
    rw [fails_outside, left]
    cases text with
    | nil => exact absurd hopening (by simp [opening?])
    | cons c cs =>
      rw [scan_cons, hcomment, hopening]
      simp only [hfinish]
  | inside own content depth text =>
    change comment? text = none at hcomment
    change opening? [own] text = some (name, tail) at hopening
    obtain ⟨-, -, hmem, -⟩ := opening?_eq_some hopening
    obtain rfl := List.mem_singleton.mp hmem
    rw [fails_inside, left]
    cases text with
    | nil => exact absurd hopening (by simp [opening?])
    | cons c cs =>
      rw [findClose_cons, hcomment, closing?_eq_none hcloses, hopening]
      simp only [hfinish]
      rfl

/-! ## Where a search comes to -/

/-- A search has come to an open tag that has no end, and the fault tells of it. -/
def EndsStuck (names : List String) (limit : Nat) (fault : Fault) (s : Stage) : Prop :=
  ∃ t name, Comes names s t ∧ t.Stuck names name ∧ fault = .unterminated name (limit - size t.left)

theorem EndsStuck.of_comes {s t : Stage} (hcomes : Comes names s t) (h : t.EndsStuck names limit fault) :
    s.EndsStuck names limit fault := by
  obtain ⟨u, name, hmore, hstuck, hfault⟩ := h
  exact ⟨u, name, hcomes.trans hmore, hstuck, hfault⟩

theorem EndsStuck.of_step {s t : Stage} (hstep : Step names s t) (h : t.EndsStuck names limit fault) :
    s.EndsStuck names limit fault :=
  h.of_comes (.single hstep)

/-- The step at an open tag inside an element of its name. -/
theorem step_of_opening {name name' : String} {content text tail rest : List Char} {depth : Nat} {tag : OpenTag}
    (hopening : (inside name content depth text).Opening names name' tail) (hfinish : finish? tail = some (tag, rest)) :
    Step names (inside name content depth text)
      (inside name content (if tag.selfClosing then depth else depth + 1) rest) := by
  cases hself : tag.selfClosing with
  | true => exact .single hopening hfinish hself
  | false => exact .deepen hopening hfinish hself

/-- What a search for a close tag comes to, by its result: out of the element, behind the close tag that it finds or,
if there is none, behind the open tag; or to a nested open tag that has no end. -/
def Ends (names : List String) (limit : Nat) (content : List Char)
    (result : Except Fault (Option (List Char × List Char))) (s : Stage) : Prop :=
  match result with
  | .ok found => Comes names s (outside (resume content found))
  | .error fault => s.EndsStuck names limit fault

theorem Ends.of_step {content : List Char} {result : Except Fault (Option (List Char × List Char))} {s t : Stage}
    (hstep : Step names s t) (h : t.Ends names limit content result) : s.Ends names limit content result := by
  cases result with
  | ok found => exact Comes.trans_step hstep h
  | error fault => exact EndsStuck.of_step hstep h

theorem ends_findClose (name : String) (content text : List Char) (depth : Nat) :
    (inside name content depth text).Ends names limit content (findClose limit name depth text) := by
  fun_induction findClose limit name depth text with
  | case1 => exact .single .giveUp
  | case2 depth c cs rest hc ih => exact ih.of_step (.comment hc)
  | case3 c cs hc tail hclosing => exact .single (.leave hc (by rw [hclosing]; rfl))
  | case4 c cs hc tail hclosing depth ih => exact ih.of_step (.close hc (by rw [hclosing]; rfl))
  | case5 depth c cs hc hclosing own tail ho hf =>
    obtain ⟨-, -, hmem, -⟩ := opening?_eq_some ho
    obtain rfl := List.mem_singleton.mp hmem
    have hopening : (inside own content depth (c :: cs)).Opening names own tail :=
      ⟨hc, by simp [Closes, hclosing], ho⟩
    exact ⟨_, own, .refl, ⟨tail, hopening, finish?_eq_none_iff.mp hf⟩, rfl⟩
  | case6 depth c cs hc hclosing own tail ho tag rest hf ih =>
    have hopening : (inside name content depth (c :: cs)).Opening names own tail :=
      ⟨hc, by simp [Closes, hclosing], ho⟩
    rw [dite_eq_ite] at ih
    exact ih.of_step (step_of_opening hopening hf)
  | case7 depth c cs hc hclosing ho ih => exact ih.of_step (.pass rfl hc (by simp [Closes, hclosing]) ho)

theorem endsStuck_of_findClose {name : String} {content text : List Char} {depth : Nat}
    (h : findClose limit name depth text = .error fault) :
    (inside name content depth text).EndsStuck names limit fault := by
  have hends := @ends_findClose names limit name content text depth
  rwa [h] at hends

/-- What the search comes to behind an element, it comes to. -/
theorem EndsStuck.of_resume {name : String} {content text : List Char} {depth : Nat}
    {found : Option (List Char × List Char)} (hclose : findClose limit name depth text = .ok found)
    (h : (outside (resume content found)).EndsStuck names limit fault) :
    (inside name content depth text).EndsStuck names limit fault := by
  have hends := @ends_findClose names limit name content text depth
  rw [hclose] at hends
  exact h.of_comes hends

/-- A search for elements that fails has come to an open tag that has no end. -/
theorem endsStuck_of_scan {text : List Char} (h : scan limit names text = .error fault) :
    (outside text).EndsStuck names limit fault := by
  fun_induction scan limit names text with
  | case1 => cases h
  | case2 c cs rest hc ih => exact (ih h).of_step (.comment hc)
  | case3 c cs hc ho ih => exact (ih h).of_step (.pass rfl hc id ho)
  | case4 =>
    rename_i c cs hc name tail ho start hf
    obtain rfl := Except.error.inj h
    exact ⟨_, name, .refl, ⟨tail, ⟨hc, id, ho⟩, finish?_eq_none_iff.mp hf⟩, rfl⟩
  | case5 =>
    rename_i c cs hc name tail ho start tag rest hf openEnd hself ih
    have hopening : (outside (c :: cs)).Opening names name tail := ⟨hc, id, ho⟩
    exact (ih (exceptMap_eq_error.mp h)).of_step (.single hopening hf hself)
  | case6 =>
    rename_i c cs hc name tail ho tag rest hf hself other hx
    obtain rfl := Except.error.inj h
    have hopening : (outside (c :: cs)).Opening names name tail := ⟨hc, id, ho⟩
    exact (endsStuck_of_findClose hx).of_step (.enter hopening hf (by simpa using hself))
  | case7 =>
    rename_i c cs hc name tail ho start tag rest hf openEnd hself hx ih
    have hopening : (outside (c :: cs)).Opening names name tail := ⟨hc, id, ho⟩
    have hinside : (inside name rest 0 rest).EndsStuck names limit fault :=
      EndsStuck.of_resume hx (ih (exceptMap_eq_error.mp h))
    exact hinside.of_step (.enter hopening hf (by simpa using hself))
  | case8 =>
    rename_i c cs hc name tail ho start tag rest hf openEnd hself close behind hx ih
    have hopening : (outside (c :: cs)).Opening names name tail := ⟨hc, id, ho⟩
    have hinside : (inside name rest 0 rest).EndsStuck names limit fault :=
      EndsStuck.of_resume hx (ih (exceptMap_eq_error.mp h))
    exact hinside.of_step (.enter hopening hf (by simpa using hself))

/-- **A search fails exactly if it comes to an open tag that has no end**, and tells of that tag. -/
theorem scan_eq_error_iff {text : List Char} :
    scan limit names text = .error fault ↔ (outside text).EndsStuck names limit fault := by
  constructor
  · exact endsStuck_of_scan
  · rintro ⟨t, name, hcomes, hstuck, rfl⟩
    exact fails_outside.mp ((fails_of_comes hcomes).mpr (fails_of_stuck hstuck))

/-! ## Where in its text a search stands -/

/-- A stage of a search in a text: what it has not looked at, and where it may go back to, are ends of the text. -/
def Of (text : List Char) : Stage → Prop
  | outside left => left <:+ text
  | inside _ content _ left => left <:+ text ∧ content <:+ text

theorem Of.left_suffix {text : List Char} {s : Stage} (h : s.Of text) : s.left <:+ text := by
  cases s with
  | outside left => exact h
  | inside name content depth left => exact h.1

theorem Of.onward {text rest : List Char} {s : Stage} (h : s.Of text) (hs : rest <:+ s.left) :
    (s.onward rest).Of text := by
  cases s with
  | outside left => exact hs.trans h
  | inside name content depth left => exact ⟨hs.trans h.1, h.2⟩

theorem Opening.suffix {s : Stage} {name : String} {tail rest : List Char} {tag : OpenTag}
    (h : s.Opening names name tail) (hfinish : finish? tail = some (tag, rest)) : rest <:+ s.left :=
  (suffix_finish? hfinish).trans (suffix_opening? h.opening)

/-- A search does not leave its text in a step. -/
theorem of_step {text : List Char} {s t : Stage} (hstep : Step names s t) (h : s.Of text) : t.Of text := by
  cases hstep with
  | comment hcomment => exact h.onward (suffix_comment? hcomment)
  | pass hleft => exact h.onward (hleft ▸ List.suffix_cons _ _)
  | single hopening hfinish => exact h.onward (hopening.suffix hfinish)
  | enter hopening hfinish => exact ⟨(hopening.suffix hfinish).trans h, (hopening.suffix hfinish).trans h⟩
  | deepen hopening hfinish => exact ⟨(hopening.suffix hfinish).trans h.1, h.2⟩
  | close => exact ⟨(suffix_behindTag _).trans h.1, h.2⟩
  | leave => exact (suffix_behindTag _).trans h.1
  | giveUp => exact h.2

/-- Nor does it in a run of steps. -/
theorem of_comes {text : List Char} {s t : Stage} (hcomes : Comes names s t) (h : s.Of text) : t.Of text := by
  induction hcomes with
  | refl => exact h
  | tail _ hstep ih => exact of_step hstep ih

end Stage

/-! ## Searches in a document -/

/-- **A search of a span comes to an open tag of a name that has no end**, and the `<` of the tag is at `start`. -/
def ComesToEndless (doc : List Char) (span : Span) (names : List String) (name : String) (start : Nat) : Prop :=
  ∃ before passed stage behind, doc = before ++ (passed ++ Stage.left stage ++ behind) ∧
    size before = span.start ∧ size before + size (passed ++ stage.left) = min span.stop (size doc) ∧
    Stage.Comes names (.outside (passed ++ stage.left)) stage ∧ stage.Stuck names name ∧
    start = size before + size passed

/-- What begins with a tag of a name that matters begins with a `<`. -/
theorem Stage.Stuck.left_eq {names : List String} {s : Stage} {name : String} (h : s.Stuck names name) :
    ∃ rest, s.left = '<' :: rest := by
  obtain ⟨tail, hopening, -⟩ := h
  obtain ⟨word, hleft, -⟩ := opening?_eq_some hopening.opening
  exact ⟨word ++ tail, hleft⟩

theorem ComesToEndless.at_lt {doc : List Char} {span : Span} {names : List String} {name : String} {start : Nat}
    (h : ComesToEndless doc span names name start) : At doc start '<' := by
  obtain ⟨before, passed, stage, behind, hdoc, -, -, -, hstuck, hstart⟩ := h
  obtain ⟨rest, hleft⟩ := hstuck.left_eq
  exact ⟨before ++ passed, rest ++ behind, by simp [hdoc, hleft], by rw [hstart, size_append]⟩

/-- A search does not look behind the end of its document. -/
theorem find_clamp (doc : List Char) (span : Span) (names : List String) :
    find doc ⟨span.start, min span.stop (size doc)⟩ names = find doc span names := by
  unfold find
  simp only [Nat.min_assoc, Nat.min_self]

/-- A search of a span that begins behind its end finds nothing. -/
theorem find_of_not_le {doc : List Char} {span : Span} (h : ¬span.start ≤ min span.stop (size doc))
    (names : List String) : find doc span names = .ok [] := by
  unfold find
  exact if_neg fun hlt => h (Nat.le_of_lt hlt)

/-- **A search fails exactly if it comes to an open tag that has no end**, and tells where it is. -/
theorem find_eq_error_iff {doc : List Char} {span : Span} {names : List String} (hstart : Boundary doc span.start)
    (hstop : Boundary doc (min span.stop (size doc))) {fault : Fault} :
    find doc span names = .error fault ↔
      ∃ name start, fault = .unterminated name start ∧ ComesToEndless doc span names name start := by
  by_cases hle : span.start ≤ min span.stop (size doc)
  · obtain ⟨before, text, behind, hdoc, hbefore, htext⟩ := Span.fits_of_boundary hstart hstop hle
    change size before = span.start at hbefore
    change size before + size text = min span.stop (size doc) at htext
    have hfind : find doc span names = scan (min span.stop (size doc)) names text := by
      have hspan : (⟨span.start, min span.stop (size doc)⟩ : Span) = ⟨size before, size before + size text⟩ :=
        Span.mk.injEq .. ▸ ⟨hbefore.symm, htext.symm⟩
      rw [← find_clamp, hspan, hdoc, find_append, ← hdoc, htext]
    rw [hfind, Stage.scan_eq_error_iff]
    constructor
    · rintro ⟨stage, name, hcomes, hstuck, rfl⟩
      obtain ⟨passed, rfl⟩ := (Stage.of_comes hcomes (List.suffix_refl text)).left_suffix
      refine ⟨name, _, rfl, before, passed, stage, behind, hdoc, hbefore, htext, hcomes, hstuck, ?_⟩
      rw [size_append] at htext
      omega
    · rintro ⟨name, start, rfl, before', passed, stage, behind', hdoc', hbefore', htext', hcomes, hstuck, rfl⟩
      -- both divide the document at the ends of the span
      obtain ⟨rfl, hrest⟩ := append_inj_of_size (hdoc.symm.trans hdoc') (hbefore.trans hbefore'.symm)
      obtain ⟨rfl, -⟩ := append_inj_of_size hrest (Nat.add_left_cancel (htext.trans htext'.symm))
      refine ⟨stage, name, hcomes, hstuck, ?_⟩
      rw [size_append] at htext
      rw [← htext, ← Nat.add_assoc, Nat.add_sub_cancel]
  · rw [find_of_not_le hle]
    refine iff_of_false (by simp) ?_
    rintro ⟨name, start, -, before, passed, stage, behind, -, hbefore, htext, -⟩
    exact hle (by omega)

/-! ## What a search gives -/

/-- **An element of a span of a document**, with its parts in order and inside the text: it begins with a `<`, and has
content only if it has a close tag. -/
structure Element.InOrder (doc : List Char) (span : Span) (e : Element) : Prop where
  start_le : span.start ≤ e.start
  start_lt_openEnd : e.start < e.openEnd
  openEnd_le_stop : e.openEnd ≤ e.stop
  stop_le : e.stop ≤ min span.stop (size doc)
  at_lt : At doc e.start '<'
  inner : ∀ inner, e.inner? = some inner →
    inner.start = e.openEnd ∧ inner.start ≤ inner.stop ∧ inner.stop ≤ e.stop
  single : e.selfClosing = true → e.closed = true ∧ e.inner? = none ∧ e.stop = e.openEnd
  unclosed : e.closed = false → e.inner? = none ∧ e.stop = e.openEnd
  paired : e.closed = true → e.selfClosing = false → e.inner?.isSome

theorem Element.Within.inOrder {doc : List Char} {span : Span} {e : Element}
    (h : e.Within ⟨span.start, min span.stop (size doc)⟩) (hlt : At doc e.start '<') : e.InOrder doc span where
  start_le := h.start_le
  start_lt_openEnd := h.start_lt_openEnd
  openEnd_le_stop := h.openEnd_le_stop
  stop_le := h.stop_le
  at_lt := hlt
  inner inner hinner :=
    ⟨h.inner_start inner hinner, h.inner_le inner hinner, Nat.le_of_lt (h.inner_stop_lt inner hinner)⟩
  single hself := by
    have hbody : e.body = .selfClosing := beq_iff_eq.mp hself
    simp [closed, inner?, stop, hbody]
  unclosed hclosed := by
    have hbody : e.body = .unclosed := by simpa [closed] using hclosed
    simp [inner?, stop, hbody]
  paired hclosed hself := by
    cases hbody : e.body with
    | selfClosing => simp [selfClosing, hbody] at hself
    | paired inner stop => simp [inner?, hbody]
    | unclosed => simp [closed, hbody] at hclosed

/-- **What a search makes of any document**: elements in order, each behind the one before it, or the fault of an open
tag that has no end, which it fails with exactly if it comes to that tag. -/
theorem find_structure {doc : List Char} {span : Span} (names : List String) (hstart : Boundary doc span.start)
    (hstop : Boundary doc (min span.stop (size doc))) :
    (∀ found, find doc span names = .ok found →
      (∀ e ∈ found, e.name ∈ names ∧ e.InOrder doc span) ∧
        found.Pairwise fun a b => a.start < b.start ∧ a.stop ≤ b.start) ∧
      ∀ fault, find doc span names = .error fault ↔
        ∃ name start, fault = .unterminated name start ∧ At doc start '<' ∧
          ComesToEndless doc span names name start := by
  constructor
  · intro found hfound
    by_cases hle : span.start ≤ min span.stop (size doc)
    · rw [← find_clamp] at hfound
      have hall := found_of_find (Span.fits_of_boundary hstart hstop hle) hfound
      have horder : ∀ e ∈ found, e.InOrder doc span := fun e he =>
        (hall.within e he).inOrder (hall.sited e he).opens.at_lt
      refine ⟨fun e he => ⟨hall.name e he, horder e he⟩, hall.ordered.imp_of_mem fun ha _ hab => ⟨?_, hab⟩⟩
      exact Nat.lt_of_lt_of_le
        (Nat.lt_of_lt_of_le (horder _ ha).start_lt_openEnd (horder _ ha).openEnd_le_stop) hab
    · rw [find_of_not_le hle] at hfound
      obtain rfl := Except.ok.inj hfound
      exact ⟨by simp, List.Pairwise.nil⟩
  · intro fault
    rw [find_eq_error_iff hstart hstop]
    refine exists_congr fun name => exists_congr fun start => and_congr_right fun _ => ?_
    exact ⟨fun h => ⟨h.at_lt, h⟩, fun h => h.2⟩

/-- A search that has found a row looks for its close tag, and fails at the nested row that has no end. -/
theorem find_structure_nested :
    Boundary "é<row><row x='>".toList 0 ∧
      Boundary "é<row><row x='>".toList (min 20 (size "é<row><row x='>".toList)) ∧
      find "é<row><row x='>".toList ⟨0, 20⟩ ["row"] = .error (.unterminated "row" 7) := by
  have hstart : Boundary "é<row><row x='>".toList 0 := ⟨[], _, rfl, rfl⟩
  have hstop : Boundary "é<row><row x='>".toList (min 20 (size "é<row><row x='>".toList)) := ⟨_, [], rfl, rfl⟩
  have hpass : Stage.Step ["row"] (.outside "é<row><row x='>".toList) (.outside "<row><row x='>".toList) :=
    .pass rfl rfl id rfl
  have henter : Stage.Step ["row"] (.outside "<row><row x='>".toList)
      (.inside "row" "<row x='>".toList 0 "<row x='>".toList) :=
    .enter ⟨rfl, id, rfl⟩ rfl rfl
  have hstuck : Stage.Stuck ["row"] (.inside "row" "<row x='>".toList 0 "<row x='>".toList) "row" :=
    ⟨" x='>".toList, ⟨rfl, Bool.false_ne_true, rfl⟩, finish?_eq_none_iff.mp rfl⟩
  have hcomes : Stage.Comes ["row"] (.outside "é<row><row x='>".toList)
      (.inside "row" "<row x='>".toList 0 "<row x='>".toList) :=
    .tail (.single hpass) henter
  have hendless : ComesToEndless "é<row><row x='>".toList ⟨0, 20⟩ ["row"] "row" 7 :=
    ⟨[], "é<row>".toList, .inside "row" "<row x='>".toList 0 "<row x='>".toList, [], rfl, rfl, rfl, hcomes, hstuck,
      rfl⟩
  exact ⟨hstart, hstop, ((find_structure ["row"] hstart hstop).2 _).mpr ⟨"row", 7, rfl, hendless.at_lt, hendless⟩⟩

end DashboardMarkup.Markup
