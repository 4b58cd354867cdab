import DashboardMarkup.Markup.Bounds

/-!
# One step of a search

`scan` and `findClose` recurse on what a reader leaves of their text, so that their definitions carry the
proofs that it is shorter. The equations here do not: each search reads what its text begins with, and
goes on.

* `findClose_cons`, `scan_cons`: a search at a character.
* `findClose_append`, `scan_append`: text without a `<` is passed over.
* `findClose_closing`, `findClose_opening`, `scan_single`, `scan_paired`: the steps at a tag, one by one.
* `find_append`: a search in a document is one of the text of its span.
* `read_cons`, `decode_cons`: the same of the readers for attributes and entities.
-/

namespace DashboardMarkup

namespace Markup

open Text (size size_append size_eq_zero)

theorem findClose_nil (limit : Nat) (name : String) (depth : Nat) :
    findClose limit name depth [] = .ok none := by
  rw [findClose]

theorem findClose_cons (limit : Nat) (name : String) (depth : Nat) (c : Char) (cs : List Char) :
    findClose limit name depth (c :: cs) =
      match comment? (c :: cs) with
      | some rest => findClose limit name depth rest
      | none =>
        match closing? name (c :: cs) with
        | some _ =>
          match depth with
          | 0 => .ok (some (c :: cs, behindTag (c :: cs)))
          | depth + 1 => findClose limit name depth (behindTag (c :: cs))
        | none =>
          match opening? [name] (c :: cs) with
          | some (_, tail) =>
            match finish? tail with
            | none => .error (.unterminated name (limit - size (c :: cs)))
            | some (tag, rest) =>
              findClose limit name (if tag.selfClosing then depth else depth + 1) rest
          | none => findClose limit name depth cs := by
  rw [findClose.eq_def]
  simp only
  split
  · next rest hc => rw [hc]
  · next hc =>
    rw [hc]
    cases closing? name (c :: cs) with
    | some tail => cases depth <;> rfl
    | none =>
      simp only
      split
      · next tail ho =>
        simp only [ho]
        split
        · next hf => rw [hf]
        · next tag rest hf => rw [hf]
      · next ho => simp only [ho]

theorem scan_nil (limit : Nat) (names : List String) : scan limit names [] = .ok [] := by
  rw [scan]

theorem scan_cons (limit : Nat) (names : List String) (c : Char) (cs : List Char) :
    scan limit names (c :: cs) =
      match comment? (c :: cs) with
      | some rest => scan limit names rest
      | none =>
        match opening? names (c :: cs) with
        | none => scan limit names cs
        | some (name, tail) =>
          match finish? tail with
          | none => .error (.unterminated name (limit - size (c :: cs)))
          | some (tag, rest) =>
            if tag.selfClosing then
              (scan limit names rest).map
                (⟨name, limit - size (c :: cs), limit - size rest, tag.attrs, .selfClosing⟩ :: ·)
            else
              match findClose limit name 0 rest with
              | .error fault => .error fault
              | .ok none =>
                (scan limit names rest).map
                  (⟨name, limit - size (c :: cs), limit - size rest, tag.attrs, .unclosed⟩ :: ·)
              | .ok (some (close, behind)) =>
                (scan limit names behind).map
                  (⟨name, limit - size (c :: cs), limit - size rest, tag.attrs,
                    .paired ⟨limit - size rest, limit - size close⟩ (limit - size behind)⟩ :: ·) := by
  rw [scan]
  repeat' split
  all_goals simp_all

/-! ## What is passed over -/

theorem comment?_of_ne_lt {c : Char} (hc : c ≠ '<') (cs : List Char) : comment? (c :: cs) = none := by
  have hc' : ('<' == c) = false := by simpa using hc.symm
  simp [comment?, Text.stripPrefix?, hc']

theorem opening?_of_ne_lt {c : Char} (hc : c ≠ '<') (names : List String) (cs : List Char) :
    opening? names (c :: cs) = none := by
  unfold opening?
  split
  · next heq => exact absurd (List.cons.inj heq).1 hc
  · rfl

theorem closing?_of_ne_lt {c : Char} (hc : c ≠ '<') (name : String) (cs : List Char) :
    closing? name (c :: cs) = none := by
  unfold closing?
  split
  · next heq => exact absurd (List.cons.inj heq).1 hc
  · rfl

theorem findClose_comment {limit : Nat} {name : String} {depth : Nat} {text rest : List Char}
    (h : comment? text = some rest) :
    findClose limit name depth text = findClose limit name depth rest := by
  cases text with
  | nil => exact absurd h (by simp [comment?, Text.stripPrefix?])
  | cons c cs => rw [findClose_cons, h]

theorem scan_comment {limit : Nat} {names : List String} {text rest : List Char}
    (h : comment? text = some rest) : scan limit names text = scan limit names rest := by
  cases text with
  | nil => exact absurd h (by simp [comment?, Text.stripPrefix?])
  | cons c cs => rw [scan_cons, h]

theorem findClose_skip {limit : Nat} {name : String} {depth : Nat} {c : Char} {cs : List Char}
    (hcomment : comment? (c :: cs) = none) (hclosing : closing? name (c :: cs) = none)
    (hopening : opening? [name] (c :: cs) = none) :
    findClose limit name depth (c :: cs) = findClose limit name depth cs := by
  rw [findClose_cons, hcomment, hclosing, hopening]

theorem scan_skip {limit : Nat} {names : List String} {c : Char} {cs : List Char}
    (hcomment : comment? (c :: cs) = none) (hopening : opening? names (c :: cs) = none) :
    scan limit names (c :: cs) = scan limit names cs := by
  rw [scan_cons, hcomment, hopening]

/-- Text without a `<` is passed over. -/
theorem findClose_append {limit : Nat} {name : String} {depth : Nat} {text : List Char}
    (h : '<' ∉ text) (rest : List Char) :
    findClose limit name depth (text ++ rest) = findClose limit name depth rest := by
  induction text with
  | nil => rfl
  | cons c cs ih =>
    have hc : c ≠ '<' := fun heq => h (heq ▸ List.mem_cons_self)
    rw [List.cons_append, findClose_skip (comment?_of_ne_lt hc _) (closing?_of_ne_lt hc _ _)
      (opening?_of_ne_lt hc _ _)]
    exact ih fun hmem => h (List.mem_cons_of_mem c hmem)

theorem scan_append {limit : Nat} {names : List String} {text : List Char} (h : '<' ∉ text)
    (rest : List Char) : scan limit names (text ++ rest) = scan limit names rest := by
  induction text with
  | nil => rfl
  | cons c cs ih =>
    have hc : c ≠ '<' := fun heq => h (heq ▸ List.mem_cons_self)
    rw [List.cons_append, scan_skip (comment?_of_ne_lt hc _) (opening?_of_ne_lt hc _ _)]
    exact ih fun hmem => h (List.mem_cons_of_mem c hmem)

/-! ## The steps at a tag -/

/-- The close tag that is looked for. -/
theorem findClose_closing {limit : Nat} {name : String} {text tail : List Char}
    (hcomment : comment? text = none) (hclosing : closing? name text = some tail) :
    findClose limit name 0 text = .ok (some (text, behindTag text)) := by
  cases text with
  | nil => exact absurd hclosing (by simp [closing?])
  | cons c cs =>
    rw [findClose_cons, hcomment]
    simp only [hclosing]

/-- The close tag of an element of the same name inside. -/
theorem findClose_closing_inside {limit : Nat} {name : String} {depth : Nat} {text tail : List Char}
    (hcomment : comment? text = none) (hclosing : closing? name text = some tail) :
    findClose limit name (depth + 1) text = findClose limit name depth (behindTag text) := by
  cases text with
  | nil => exact absurd hclosing (by simp [closing?])
  | cons c cs =>
    rw [findClose_cons, hcomment]
    simp only [hclosing]

/-- The open tag of an element of the same name inside. -/
theorem findClose_opening {limit : Nat} {name name' : String} {depth : Nat} {text tail rest : List Char}
    {tag : OpenTag} (hcomment : comment? text = none) (hclosing : closing? name text = none)
    (hopening : opening? [name] text = some (name', tail)) (hfinish : finish? tail = some (tag, rest)) :
    findClose limit name depth text =
      findClose limit name (if tag.selfClosing then depth else depth + 1) rest := by
  cases text with
  | nil => exact absurd hopening (by simp [opening?])
  | cons c cs =>
    rw [findClose_cons, hcomment, hclosing, hopening]
    simp only [hfinish]

/-- An element that closes itself. -/
theorem scan_single {limit : Nat} {names : List String} {name : String} {text tail rest : List Char}
    {tag : OpenTag} (hcomment : comment? text = none) (hopening : opening? names text = some (name, tail))
    (hfinish : finish? tail = some (tag, rest)) (hself : tag.selfClosing = true) :
    scan limit names text = (scan limit names rest).map
      (⟨name, limit - size text, limit - size rest, tag.attrs, .selfClosing⟩ :: ·) := by
  cases text with
  | nil => exact absurd hopening (by simp [opening?])
  | cons c cs =>
    rw [scan_cons, hcomment, hopening]
    simp only [hfinish]
    rw [if_pos hself]

/-- An element whose close tag is found. -/
theorem scan_paired {limit : Nat} {names : List String} {name : String}
    {text tail rest close behind : List Char} {tag : OpenTag} (hcomment : comment? text = none)
    (hopening : opening? names text = some (name, tail)) (hfinish : finish? tail = some (tag, rest))
    (hself : tag.selfClosing = false)
    (hclose : findClose limit name 0 rest = .ok (some (close, behind))) :
    scan limit names text = (scan limit names behind).map
      (⟨name, limit - size text, limit - size rest, tag.attrs,
        .paired ⟨limit - size rest, limit - size close⟩ (limit - size behind)⟩ :: ·) := by
  cases text with
  | nil => exact absurd hopening (by simp [opening?])
  | cons c cs =>
    rw [scan_cons, hcomment, hopening]
    simp only [hfinish]
    rw [if_neg (by simp [hself]), hclose]

/-- At the open tag of an element that does not close itself, a search that succeeds reports it: without its
close tag, or with the one that is found. -/
theorem scan_open_cases {limit : Nat} {names : List String} {name : String}
    {text tail rest : List Char} {tag : OpenTag} {found : List Element} (hcomment : comment? text = none)
    (hopening : opening? names text = some (name, tail)) (hfinish : finish? tail = some (tag, rest))
    (hself : tag.selfClosing = false) (h : scan limit names text = .ok found) :
    ∃ e more, found = e :: more ∧ e.name = name ∧
      (e.body = .unclosed ∨ ∃ close behind,
        findClose limit name 0 rest = .ok (some (close, behind)) ∧
          e.body = .paired ⟨limit - size rest, limit - size close⟩ (limit - size behind) ∧
            scan limit names behind = .ok more) := by
  cases hclose : findClose limit name 0 rest with
  | error fault =>
    cases text with
    | nil => exact absurd hopening (by simp [opening?])
    | cons c cs =>
      rw [scan_cons, hcomment, hopening] at h
      simp only [hfinish, hself, hclose] at h
      exact absurd h (by simp)
  | ok located =>
    cases located with
    | none =>
      cases text with
      | nil => exact absurd hopening (by simp [opening?])
      | cons c cs =>
        rw [scan_cons, hcomment, hopening] at h
        simp only [hfinish, hself, hclose] at h
        obtain ⟨more, -, rfl⟩ := exceptMap_eq_ok.mp h
        exact ⟨_, more, rfl, rfl, Or.inl rfl⟩
    | some pair =>
      obtain ⟨close, behind⟩ := pair
      rw [scan_paired hcomment hopening hfinish hself hclose] at h
      obtain ⟨more, hmore, rfl⟩ := exceptMap_eq_ok.mp h
      exact ⟨_, more, rfl, rfl, Or.inr ⟨close, behind, rfl, rfl, hmore⟩⟩

/-- Where the text ends matters only to the faults of a search for a close tag. -/
theorem findClose_limit {limit : Nat} {name : String} {depth : Nat} {text : List Char}
    {found : Option (List Char × List Char)} (h : findClose limit name depth text = .ok found)
    (limit' : Nat) : findClose limit' name depth text = .ok found := by
  fun_induction findClose limit name depth text with
  | case1 =>
    rw [findClose_nil]
    exact h
  | case2 depth c cs rest hc ih =>
    rw [findClose_comment hc]
    exact ih h
  | case3 c cs hc tail hclosing =>
    rw [findClose_closing hc hclosing]
    exact h
  | case4 c cs hc tail hclosing depth ih =>
    rw [findClose_closing_inside hc hclosing]
    exact ih h
  | case5 => exact absurd h (by simp)
  | case6 depth c cs hc hclosing name' tail ho tag rest hf ih =>
    rw [findClose_opening hc hclosing ho hf]
    exact ih h
  | case7 depth c cs hc hclosing ho ih =>
    rw [findClose_skip hc hclosing ho]
    exact ih h

/-- A search inside a document looks at the text of its span. -/
theorem find_append (before text behind : List Char) (names : List String) :
    find (before ++ (text ++ behind)) ⟨size before, size before + size text⟩ names =
      scan (size before + size text) names text := by
  have hlimit : min (size before + size text) (size (before ++ (text ++ behind))) =
      size before + size text := by
    simp only [size_append]
    omega
  unfold find
  simp only [hlimit]
  split
  · unfold Span.text
    rw [Span.cut?_append]
  · next hle =>
    have hnil : text = [] := size_eq_zero.mp (by omega)
    rw [hnil, scan_nil]

end Markup

theorem Entity.decode_nil : decode [] = [] := by
  rw [decode]

theorem Entity.decode_cons (c : Char) (cs : List Char) :
    decode (c :: cs) =
      match read? (c :: cs) with
      | some (d, rest) => d :: decode rest
      | none => c :: decode cs := by
  rw [decode]
  split
  · next h => simp only [h]
  · next h => simp only [h]

theorem Attributes.read_nil : read [] = [] := by
  rw [read]
  simp [Text.trimStart]

theorem Attributes.read_cons (c : Char) (cs : List Char) :
    read (c :: cs) =
      match Text.trimStart (c :: cs) with
      | [] => []
      | d :: ds =>
        match Attribute.read? (d :: ds) with
        | some (a, rest) => a :: read rest
        | none => read ds := by
  rw [read]
  split
  · next h => simp only [h]
  · next h =>
    simp only [h]
    split
    · next h => simp only [h]
    · next h => simp only [h]

end DashboardMarkup
