import DashboardMarkup.Json.Reader
import DashboardMarkup.Proofs.Json.Lexeme

/-!
# Line breaks in JSON

Between the lexemes of JSON there may be blanks, and inside a string a line break is a flaw, be it one or
several. So a removal that leaves out superfluous breaks changes no object: of two texts that differ by
them either both spell it, or none does.

* `value_respaced`: a value is read from both of two such texts, and what is left differs likewise.
* `readObject_respaced`: they spell the same object, or none.
-/

namespace DashboardMarkup.Json

open Text

/-! ## One step of the reader -/

theorem value_eq (total : Nat) (stack : List Frame) (unread : List Char) :
    value total stack unread =
      match skipBlanks unread with
      | [] => flawAtEnd total .endForValue
      | 'n' :: rest => (word total "ull".toList rest).bind (close total stack null)
      | 't' :: rest => (word total "rue".toList rest).bind (close total stack (bool true))
      | 'f' :: rest => (word total "alse".toList rest).bind (close total stack (bool false))
      | '"' :: rest =>
        (stringBody total rest).bind fun p => close total stack (string (String.ofList p.1)) p.2
      | '-' :: rest => (number total true rest).bind fun p => close total stack p.1 p.2
      | '[' :: inner =>
        if depthLimit ≤ stack.length + 1 then flawAt total ('[' :: inner) 1 .tooDeep
        else
          match skipBlanks inner with
          | [] => flawAtEnd total .endInArray
          | ']' :: more => close total stack (array []) more
          | _ => value total (.items [] :: stack) inner
      | '\x7b' :: inner =>
        if depthLimit ≤ stack.length + 1 then flawAt total ('\x7b' :: inner) 1 .tooDeep
        else
          match skipBlanks inner with
          | [] => flawAtEnd total .endInObject
          | '\x7d' :: more => close total stack (object []) more
          | '"' :: keyText =>
            (memberKey total keyText).bind fun p => value total (.members [] p.1 :: stack) p.2
          | other => flawAt total other 1 .keyNotString
      | c :: rest =>
        if c.isDigit then (number total false (c :: rest)).bind fun p => close total stack p.1 p.2
        else flawAt total (c :: rest) 1 .noValue := by
  rw [value]
  split
  · next h => rw [h]
  · next h =>
    rw [h]
    simp only [Except.bind]
    split <;> simp_all
  · next h =>
    rw [h]
    simp only [Except.bind]
    split <;> simp_all
  · next h =>
    rw [h]
    simp only [Except.bind]
    split <;> simp_all
  · next h =>
    rw [h]
    simp only [Except.bind]
    split <;> simp_all
  · next h =>
    rw [h]
    simp only [Except.bind]
    split <;> simp_all
  · next h =>
    rw [h]
    simp only
    split
    · rfl
    · split <;> simp_all
  · next h =>
    rw [h]
    simp only
    split
    · rfl
    · split
      · simp_all
      · simp_all
      · next hk =>
        rw [hk]
        simp only [Except.bind]
        split <;> simp_all
      · simp_all
  · next h =>
    rw [h]
    split
    · simp only [Except.bind]
      split <;> simp_all
    · simp_all

theorem value_digit {c : Char} (hc : c.isDigit = true) {unread rest : List Char}
    (h : skipBlanks unread = c :: rest) (total : Nat) (stack : List Frame) :
    value total stack unread =
      (number total false (c :: rest)).bind fun p => close total stack p.1 p.2 := by
  rw [value_eq, h]
  split
  · next heq => exact absurd heq (by simp)
  all_goals first
    | next heq =>
      rw [(List.cons.inj heq).1] at hc
      exact absurd hc (by decide)
    | next heq =>
      obtain ⟨rfl, rfl⟩ := List.cons.inj heq
      rw [if_pos hc]

theorem close_eq (total : Nat) (stack : List Frame) (v : Json) (unread : List Char) :
    close total stack v unread =
      match stack with
      | [] => .ok (v, unread)
      | .items done :: stack =>
        match skipBlanks unread with
        | [] => flawAtEnd total .endInArray
        | ']' :: rest => close total stack (array (done ++ [v])) rest
        | ',' :: inner =>
          match skipBlanks inner with
          | [] => flawAtEnd total .endForValue
          | ']' :: more => flawAt total (']' :: more) 1 .trailingComma
          | _ => value total (.items (done ++ [v]) :: stack) inner
        | other => flawAt total other 1 .noArrayComma
      | .members done key :: stack =>
        match skipBlanks unread with
        | [] => flawAtEnd total .endInObject
        | '\x7d' :: rest => close total stack (object (done.insert key v)) rest
        | ',' :: inner =>
          match skipBlanks inner with
          | [] => flawAtEnd total .endForValue
          | '"' :: keyText =>
            (memberKey total keyText).bind fun p =>
              value total (.members (done.insert key v) p.1 :: stack) p.2
          | '\x7d' :: more => flawAt total ('\x7d' :: more) 1 .trailingComma
          | other => flawAt total other 1 .keyNotString
        | other => flawAt total other 1 .noObjectComma := by
  rw [close.eq_def]
  split
  · rfl
  · split
    · simp_all
    · simp_all
    · next h =>
      rw [h]
      rfl
    · simp_all
  · split
    · simp_all
    · simp_all
    · next h =>
      rw [h]
      simp only
      all_goals
        split
        · simp_all
        · next hk =>
          rw [hk]
          simp only [Except.bind]
          split <;> simp_all
        · simp_all
        · simp_all
    · simp_all

/-! ## The same step in another text -/

/-- Behind their blanks both texts are empty or go on with the same character. -/
theorem skipBlanks_respaced {seen : Bool} {s t : List Char} (h : Respaced seen s t) :
    (skipBlanks s = [] ∧ skipBlanks t = []) ∨
      ∃ c s' t', skipBlanks s = c :: s' ∧ skipBlanks t = c :: t' ∧
        (isBlank c = false → Respaced false s' t') := by
  rcases h.dropWhile (p := isPlainBlank) rfl with hnil | ⟨c, s', t', seen', hs, ht, -, hrest⟩
  · exact Or.inl hnil
  · refine Or.inr ⟨c, s', t', hs, ht, fun hc => ?_⟩
    rwa [breakSeen_of_not_blank hc] at hrest

/-- A reader gives the same for texts that differ by superfluous breaks. -/
def Respects {α : Type} (read : Nat → List Char → Except Flaw (α × List Char)) : Prop :=
  ∀ (total total' : Nat) {s t rest : List Char} {a : α}, Respaced false s t →
    read total s = .ok (a, rest) → ∃ rest', read total' t = .ok (a, rest') ∧ Respaced false rest rest'

theorem respects_stringBody : Respects stringBody :=
  fun _ total' _ _ _ _ h hread => (takes_stringBody hread).respaced h total'

theorem respects_number (negative : Bool) : Respects fun total text => number total negative text :=
  fun _ total' _ _ _ _ h hread => (takes_number hread).respaced h total'

theorem exceptBind_eq_ok {ε α β : Type} {x : Except ε α} {f : α → Except ε β} {b : β} :
    x.bind f = .ok b ↔ ∃ a, x = .ok a ∧ f a = .ok b := by
  cases x <;> simp [Except.bind]

theorem respects_memberKey : Respects memberKey := by
  intro total total' s t rest key h hread
  unfold memberKey at hread ⊢
  obtain ⟨⟨letters, more⟩, hstring, hcolon⟩ := exceptBind_eq_ok.mp hread
  obtain ⟨more', hstring', hmore⟩ := respects_stringBody total total' h hstring
  simp only at hcolon
  split at hcolon
  · exact absurd hcolon (by simp [flawAtEnd])
  · next hskip =>
    obtain ⟨rfl, rfl⟩ := Prod.mk.inj (Except.ok.inj hcolon)
    rcases skipBlanks_respaced hmore with ⟨hnil, -⟩ | ⟨c, s', t', hs, ht, hrest⟩
    · rw [hskip] at hnil
      exact absurd hnil (by simp)
    · rw [hskip] at hs
      obtain ⟨rfl, rfl⟩ := List.cons.inj hs
      refine ⟨t', ?_, hrest rfl⟩
      simp only [hstring', bind, Except.bind, ht]
      rfl
  · exact absurd hcolon (by simp [flawAt])

/-- What the first of two readings gives the second one gives, too, and what they leave differs by
superfluous breaks. -/
def Agree (x y : Except Flaw (Json × List Char)) : Prop :=
  ∀ v rest, x = .ok (v, rest) →
    ∃ seen rest', y = .ok (v, rest') ∧ Respaced seen rest rest'

theorem agree_error {x y : Except Flaw (Json × List Char)} {flaw : Flaw} (h : x = .error flaw) :
    Agree x y := by
  intro v rest hx
  rw [h] at hx
  exact absurd hx (by simp)

theorem agree_lexeme {α : Type} {read : Nat → List Char → Except Flaw (α × List Char)}
    (hread : Respects read) {total total' : Nat} {s t : List Char} (h : Respaced false s t)
    {next next' : α × List Char → Except Flaw (Json × List Char)}
    (hnext : ∀ {a rest rest'}, read total s = .ok (a, rest) → Respaced false rest rest' →
      Agree (next (a, rest)) (next' (a, rest'))) :
    Agree ((read total s).bind next) ((read total' t).bind next') := by
  intro v rest hx
  obtain ⟨⟨a, more⟩, ha, hv⟩ := exceptBind_eq_ok.mp hx
  obtain ⟨more', ha', hmore⟩ := hread total total' h ha
  obtain ⟨seen, rest', hv', hrest⟩ := hnext ha hmore _ _ hv
  exact ⟨seen, rest', exceptBind_eq_ok.mpr ⟨(a, more'), ha', hv'⟩, hrest⟩

theorem agree_word {letters : List Char} (hletters : '\n' ∉ letters) {total total' : Nat}
    {s t : List Char} (h : Respaced false s t)
    {next next' : List Char → Except Flaw (Json × List Char)}
    (hnext : ∀ {rest rest'}, rest.length ≤ s.length → Respaced false rest rest' →
      Agree (next rest) (next' rest')) :
    Agree ((word total letters s).bind next) ((word total' letters t).bind next') := by
  intro v rest hx
  obtain ⟨more, hword, hv⟩ := exceptBind_eq_ok.mp hx
  obtain rfl := word_eq_ok.mp hword
  obtain ⟨more', rfl, hmore⟩ := h.append_inv hletters
  obtain ⟨seen, rest', hv', hrest⟩ := hnext (by simp) hmore _ _ hv
  exact ⟨seen, rest', exceptBind_eq_ok.mpr ⟨more', word_eq_ok.mpr rfl, hv'⟩, hrest⟩

/-- Readings of texts up to some length agree, where a value begins and behind one. -/
structure Agreement (n : Nat) : Prop where
  value : ∀ {total total' : Nat} (stack : List Frame) {seen : Bool} {s t : List Char}, s.length ≤ n →
    Respaced seen s t → Agree (value total stack s) (value total' stack t)
  close : ∀ {total total' : Nat} (stack : List Frame) (v : Json) {seen : Bool} {s t : List Char},
    s.length ≤ n → Respaced seen s t → Agree (close total stack v s) (close total' stack v t)

theorem not_isBlank_of_isDigit {c : Char} (h : c.isDigit = true) : isBlank c = false := by
  have hlo : 48 ≤ c.toNat := (Bool.and_eq_true_iff.mp h).1 |> of_decide_eq_true
  have hhi : c.toNat ≤ 57 := (Bool.and_eq_true_iff.mp h).2 |> of_decide_eq_true
  unfold isBlank
  simp only [Bool.or_eq_false_iff, Bool.and_eq_false_iff, decide_eq_false_iff_not, beq_eq_false_iff_ne]
  omega

/-- Where a value begins. -/
theorem agree_value {n : Nat} (ih : ∀ m < n, Agreement m) {total total' : Nat} (stack : List Frame)
    {seen : Bool} {s t : List Char} (hn : s.length = n) (h : Respaced seen s t) :
    Agree (value total stack s) (value total' stack t) := by
  have hlength := length_skipBlanks_le s
  rcases skipBlanks_respaced h with ⟨hs, ht⟩ | ⟨c, s', t', hs, ht, hrest⟩
  · rw [value_eq, hs]
    exact agree_error rfl
  · rw [hs, List.length_cons] at hlength
    have hclose : ∀ {rest rest' : List Char} (v : Json), rest.length ≤ s'.length →
        Respaced false rest rest' → Agree (close total stack v rest) (close total' stack v rest') :=
      fun v hle hspace => (ih _ (by omega)).close stack v (Nat.le_refl _) hspace
    have hvalue : ∀ {rest rest' : List Char} {seen : Bool} (stack : List Frame),
        rest.length ≤ s'.length → Respaced seen rest rest' →
          Agree (value total stack rest) (value total' stack rest') :=
      fun stack hle hspace => (ih _ (by omega)).value stack (Nat.le_refl _) hspace
    by_cases hdigit : c.isDigit = true
    · have hspace : Respaced false (c :: s') (c :: t') := by
        have hc : isBlank c = false := not_isBlank_of_isDigit hdigit
        refine .keep ?_
        rw [breakSeen_of_not_blank hc]
        exact hrest hc
      rw [value_digit hdigit hs, value_digit hdigit ht]
      refine agree_lexeme (respects_number false) hspace fun hread hspace => ?_
      have hlt := length_number_lt hread
      exact hclose _ (Nat.le_of_lt_succ hlt) hspace
    · rw [value_eq, hs, value_eq total', ht]
      split
      · next heq => exact absurd heq (by simp)
      · next rest heq =>
        obtain ⟨rfl, rfl⟩ := List.cons.inj heq
        exact agree_word (by decide) (hrest rfl) fun hle hspace => hclose _ hle hspace
      · next rest heq =>
        obtain ⟨rfl, rfl⟩ := List.cons.inj heq
        exact agree_word (by decide) (hrest rfl) fun hle hspace => hclose _ hle hspace
      · next rest heq =>
        obtain ⟨rfl, rfl⟩ := List.cons.inj heq
        exact agree_word (by decide) (hrest rfl) fun hle hspace => hclose _ hle hspace
      · next rest heq =>
        obtain ⟨rfl, rfl⟩ := List.cons.inj heq
        simp only
        refine agree_lexeme respects_stringBody (hrest rfl) fun hread hspace => ?_
        exact hclose _ (Nat.le_of_lt (length_stringBody_lt hread)) hspace
      · next rest heq =>
        obtain ⟨rfl, rfl⟩ := List.cons.inj heq
        simp only
        refine agree_lexeme (respects_number true) (hrest rfl) fun hread hspace => ?_
        exact hclose _ (Nat.le_of_lt (length_number_lt hread)) hspace
      · next inner heq =>
        obtain ⟨rfl, rfl⟩ := List.cons.inj heq
        have hinner := hrest rfl
        simp only
        split
        · exact agree_error rfl
        · rcases skipBlanks_respaced hinner with ⟨hs', ht'⟩ | ⟨c', s'', t'', hs', ht', hrest'⟩
          · rw [hs']
            exact agree_error rfl
          · have hlength' := length_skipBlanks_le s'
            rw [hs', List.length_cons] at hlength'
            rw [hs', ht']
            split
            · next heq => exact absurd heq (by simp)
            · next more heq =>
              obtain ⟨rfl, rfl⟩ := List.cons.inj heq
              exact hclose _ (by omega) (hrest' rfl)
            · next hother =>
              have hc' : c' ≠ ']' := by
                rintro rfl
                exact hother _ rfl
              split
              · next heq => exact absurd heq (by simp)
              · next heq => exact absurd (List.cons.inj heq).1 hc'
              · exact hvalue _ (Nat.le_refl _) hinner
      · next inner heq =>
        obtain ⟨rfl, rfl⟩ := List.cons.inj heq
        have hinner := hrest rfl
        simp only
        split
        · exact agree_error rfl
        · rcases skipBlanks_respaced hinner with ⟨hs', ht'⟩ | ⟨c', s'', t'', hs', ht', hrest'⟩
          · rw [hs']
            exact agree_error rfl
          · have hlength' := length_skipBlanks_le s'
            rw [hs', List.length_cons] at hlength'
            rw [hs', ht']
            split
            · next heq => exact absurd heq (by simp)
            · next more heq =>
              obtain ⟨rfl, rfl⟩ := List.cons.inj heq
              exact hclose _ (by omega) (hrest' rfl)
            · next keyText heq =>
              obtain ⟨rfl, rfl⟩ := List.cons.inj heq
              simp only
              refine agree_lexeme respects_memberKey (hrest' rfl) fun hread hspace => ?_
              have hkey := length_memberKey_lt hread
              exact hvalue _ (Nat.le_trans (Nat.le_of_lt hkey) (by omega)) hspace
            · exact agree_error rfl
      · next heq =>
        obtain ⟨rfl, rfl⟩ := List.cons.inj heq
        rw [if_neg hdigit]
        exact agree_error rfl

/-- Behind a value. -/
theorem agree_close {n : Nat} (ih : ∀ m < n, Agreement m) {total total' : Nat} (stack : List Frame)
    (v : Json) {seen : Bool} {s t : List Char} (hn : s.length = n) (h : Respaced seen s t) :
    Agree (close total stack v s) (close total' stack v t) := by
  rw [close_eq, close_eq total']
  cases stack with
  | nil =>
    intro w rest heq
    obtain ⟨rfl, rfl⟩ := Prod.mk.inj (Except.ok.inj heq)
    exact ⟨seen, t, rfl, h⟩
  | cons frame stack =>
    have hlength := length_skipBlanks_le s
    rcases skipBlanks_respaced h with ⟨hs, ht⟩ | ⟨c, s', t', hs, ht, hrest⟩
    · cases frame with
      | items done =>
        simp only [hs]
        exact agree_error rfl
      | members done key =>
        simp only [hs]
        exact agree_error rfl
    · rw [hs, List.length_cons] at hlength
      have hclose : ∀ {rest rest' : List Char} (v : Json), rest.length ≤ s'.length →
          Respaced false rest rest' → Agree (close total stack v rest) (close total' stack v rest') :=
        fun v hle hspace => (ih _ (by omega)).close stack v (Nat.le_refl _) hspace
      have hvalue : ∀ {rest rest' : List Char} {seen : Bool} (stack : List Frame),
          rest.length ≤ s'.length → Respaced seen rest rest' →
            Agree (value total stack rest) (value total' stack rest') :=
        fun stack hle hspace => (ih _ (by omega)).value stack (Nat.le_refl _) hspace
      cases frame with
      | items done =>
        simp only [hs, ht]
        split
        · next heq => exact absurd heq (by simp)
        · next heq =>
          obtain ⟨rfl, rfl⟩ := List.cons.inj heq
          exact hclose _ (Nat.le_refl _) (hrest rfl)
        · next inner heq =>
          obtain ⟨rfl, rfl⟩ := List.cons.inj heq
          have hinner := hrest rfl
          simp only
          rcases skipBlanks_respaced hinner with ⟨hs', ht'⟩ | ⟨c', s'', t'', hs', ht', -⟩
          · rw [hs']
            exact agree_error rfl
          · rw [hs', ht']
            split
            · next heq => exact absurd heq (by simp)
            · exact agree_error rfl
            · next hother =>
              have hc' : c' ≠ ']' := by
                rintro rfl
                exact hother _ rfl
              split
              · next heq => exact absurd heq (by simp)
              · next heq => exact absurd (List.cons.inj heq).1 hc'
              · exact hvalue _ (Nat.le_refl _) hinner
        · exact agree_error rfl
      | members done key =>
        simp only [hs, ht]
        split
        · next heq => exact absurd heq (by simp)
        · next heq =>
          obtain ⟨rfl, rfl⟩ := List.cons.inj heq
          exact hclose _ (Nat.le_refl _) (hrest rfl)
        · next inner heq =>
          obtain ⟨rfl, rfl⟩ := List.cons.inj heq
          simp only
          rcases skipBlanks_respaced (hrest rfl) with ⟨hs', ht'⟩ | ⟨c', s'', t'', hs', ht', hrest'⟩
          · rw [hs']
            exact agree_error rfl
          · have hlength' := length_skipBlanks_le s'
            rw [hs', List.length_cons] at hlength'
            rw [hs', ht']
            split
            · next heq => exact absurd heq (by simp)
            · next keyText heq =>
              obtain ⟨rfl, rfl⟩ := List.cons.inj heq
              simp only
              refine agree_lexeme respects_memberKey (hrest' rfl) fun hread hspace => ?_
              have hkey := length_memberKey_lt hread
              exact hvalue _ (Nat.le_trans (Nat.le_of_lt hkey) (by omega)) hspace
            · exact agree_error rfl
            · exact agree_error rfl
        · exact agree_error rfl

theorem agreement (n : Nat) : Agreement n := by
  induction n using Nat.strongRecOn with
  | ind n ih =>
    refine ⟨fun stack _ _ _ hle h => ?_, fun stack v _ _ _ hle h => ?_⟩
    · rcases Nat.lt_or_eq_of_le hle with hlt | heq
      · exact (ih _ hlt).value stack (Nat.le_refl _) h
      · exact agree_value ih stack heq h
    · rcases Nat.lt_or_eq_of_le hle with hlt | heq
      · exact (ih _ hlt).close stack v (Nat.le_refl _) h
      · exact agree_close ih stack v heq h

/-- **A value is read from both of two texts that differ by superfluous breaks**, and what is left differs
likewise. -/
theorem value_respaced {seen : Bool} {s t : List Char} (h : Respaced seen s t) (total total' : Nat)
    (stack : List Frame) : Agree (value total stack s) (value total' stack t) :=
  (agreement s.length).value stack (Nat.le_refl _) h

/-! ## Objects -/

theorem finish_eq_ok {α : Type} {total : Nat} {a b : α} {unread : List Char} :
    finish total a unread = .ok b ↔ a = b ∧ skipBlanks unread = [] := by
  unfold finish
  split
  · next hnil => simp [hnil]
  · next hne =>
    refine ⟨fun h => absurd h (by simp [flawAt]), fun h => absurd h.2 hne⟩

/-- A text spells an object if it begins with a brace, a value can be read from there, and nothing but
blanks follows. -/
theorem readObject_eq_ok {text : List Char} {o : Object} :
    readObject text = .ok o ↔ ∃ body rest, skipBlanks text = '\x7b' :: body ∧
      value (size text) [] ('\x7b' :: body) = .ok (object o, rest) ∧ skipBlanks rest = [] := by
  unfold readObject
  simp only
  split
  · next body heq =>
    rw [heq]
    constructor
    · intro h
      obtain ⟨⟨v, rest⟩, hvalue, h⟩ := exceptBind_eq_ok.mp h
      split at h
      · next members rest' hpair =>
        obtain ⟨rfl, rfl⟩ := Prod.mk.inj hpair
        obtain ⟨rfl, hnil⟩ := finish_eq_ok.mp h
        exact ⟨body, rest, rfl, hvalue, hnil⟩
      · exact absurd h (by simp [refuse, flawAt])
    · rintro ⟨body', rest, hbody, hvalue, hnil⟩
      obtain rfl := (List.cons.inj hbody).2
      refine exceptBind_eq_ok.mpr ⟨_, hvalue, ?_⟩
      exact finish_eq_ok.mpr ⟨rfl, hnil⟩
  · next heq =>
    refine ⟨fun h => absurd h (by simp [refuse, flawAt]), ?_⟩
    rintro ⟨body, rest, hbody, -⟩
    rw [heq] at hbody
    exact absurd (List.cons.inj hbody).1 (by decide)
  · next hbrace _ =>
    constructor
    · intro h
      obtain ⟨⟨v, rest⟩, -, h⟩ := exceptBind_eq_ok.mp h
      exact absurd h (by simp [refuse, flawAt])
    · rintro ⟨body, rest, hbody, -⟩
      exact absurd hbody (hbrace body)

theorem readObject_of_respaced {seen : Bool} {s t : List Char} (h : Respaced seen s t) {o : Object}
    (hread : readObject s = .ok o) : readObject t = .ok o := by
  obtain ⟨body, rest, hbody, hvalue, hnil⟩ := readObject_eq_ok.mp hread
  rcases skipBlanks_respaced h with ⟨hs, -⟩ | ⟨c, s', t', hs, ht, hrest⟩
  · rw [hbody] at hs
    exact absurd hs (by simp)
  · rw [hbody] at hs
    obtain ⟨rfl, rfl⟩ := List.cons.inj hs
    have hspace : Respaced false ('\x7b' :: body) ('\x7b' :: t') := .keep (hrest rfl)
    obtain ⟨seen', rest', hvalue', hmore⟩ := value_respaced hspace _ (size t) [] _ _ hvalue
    refine readObject_eq_ok.mpr ⟨t', rest', ht, hvalue', ?_⟩
    rcases skipBlanks_respaced hmore with ⟨-, hnil'⟩ | ⟨c, s'', t'', hs'', -, -⟩
    · exact hnil'
    · rw [hnil] at hs''
      exact absurd hs'' (by simp)

/-- **Two texts that differ by superfluous breaks spell the same object, or none of them does.** -/
theorem readObject_respaced {seen : Bool} {s t : List Char} (h : Respaced seen s t) (o : Object) :
    readObject s = .ok o ↔ readObject t = .ok o :=
  ⟨readObject_of_respaced h, readObject_of_respaced h.symm⟩

end DashboardMarkup.Json
