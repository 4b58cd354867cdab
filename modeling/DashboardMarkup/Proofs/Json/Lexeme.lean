import DashboardMarkup.Json.Lexeme
import DashboardMarkup.Markup.Bounds
import DashboardMarkup.Proofs.Text.Respaced
import Mathlib.Data.List.TakeWhile

/-!
# What a lexeme of JSON is read from

A word, a string or a number is read from the front of a text, and in that front there is no line break. So
it is read from the front of another text, too, whatever follows there; behind a number the same character
has to follow.

* `takes_stringBody`, `takes_number`: the readers of lexemes.
* `Takes.respaced`: they read the same from texts that differ by superfluous breaks.
-/

namespace DashboardMarkup.Json

open Text

variable {α : Type}

/-- **A reader takes a front of a text**, without a line break, and it takes the same front of any other
text in which the same character follows. -/
def Takes (read : Nat → List Char → Except Flaw (α × List Char)) (unread : List Char) (a : α)
    (rest : List Char) : Prop :=
  ∃ front, unread = front ++ rest ∧ '\n' ∉ front ∧
    ∀ total more, more.head? = rest.head? → read total (front ++ more) = .ok (a, more)

/-- A reader that takes a front of a text reads the same from a text that has more or fewer breaks. -/
theorem Takes.respaced {read : Nat → List Char → Except Flaw (α × List Char)}
    {unread unread' rest : List Char} {a : α} (h : Takes read unread a rest)
    (hspace : Respaced false unread unread') (total : Nat) :
    ∃ rest', read total unread' = .ok (a, rest') ∧ Respaced false rest rest' := by
  obtain ⟨front, rfl, hbreak, hread⟩ := h
  obtain ⟨rest', rfl, hrest⟩ := hspace.append_inv hbreak
  exact ⟨rest', hread total rest' hrest.head?_eq, hrest⟩

/-- A reader that looks at one more character before it goes on as another one does. -/
theorem Takes.cons {β : Type} {read : Nat → List Char → Except Flaw (α × List Char)}
    {read' : Nat → List Char → Except Flaw (β × List Char)} {c : Char} {unread rest : List Char} {a : α}
    {b : β} (h : Takes read unread a rest) (hc : c ≠ '\n')
    (hread : ∀ total text more, read total text = .ok (a, more) →
      read' total (c :: text) = .ok (b, more)) :
    Takes read' (c :: unread) b rest := by
  obtain ⟨front, rfl, hbreak, hfront⟩ := h
  refine ⟨c :: front, rfl, ?_, fun total more hmore => hread _ _ _ (hfront total more hmore)⟩
  rw [List.mem_cons]
  exact not_or.mpr ⟨hc.symm, hbreak⟩

/-! ## Words -/

theorem word_eq_ok {total : Nat} {letters unread rest : List Char} :
    word total letters unread = .ok rest ↔ unread = letters ++ rest := by
  fun_induction word total letters unread with
  | case1 unread => simp
  | case2 => simp [flawAtEnd]
  | case3 w ws c cs hwc ih =>
    have hwc := beq_iff_eq.mp hwc
    rw [ih, hwc]
    simp
  | case4 w ws c cs hwc =>
    have hne : c ≠ w := fun heq => hwc (beq_iff_eq.mpr heq.symm)
    simp [flawAt, hne]

/-! ## Strings -/

theorem ne_break_of_hexValue? {c : Char} {n : Nat} (h : hexValue? c = some n) : c ≠ '\n' := by
  rintro rfl
  have hnone : hexValue? '\n' = none := by decide
  rw [hnone] at h
  exact absurd h (by simp)

theorem takes_codeUnit {total : Nat} {unread rest : List Char} {n : Nat}
    (h : codeUnit total unread = .ok (n, rest)) : Takes codeUnit unread n rest := by
  unfold codeUnit at h
  split at h
  · exact absurd h (by simp [flawAtEnd])
  · split at h
    · rename_i a b c d rest' _
      split at h
      · next va vb vc vd ha hb hc hd =>
        obtain ⟨rfl, rfl⟩ := Prod.mk.inj (Except.ok.inj h)
        refine ⟨[a, b, c, d], rfl, ?_, fun total more _ => ?_⟩
        · simp only [List.mem_cons, List.not_mem_nil, or_false, not_or]
          exact ⟨(ne_break_of_hexValue? ha).symm, (ne_break_of_hexValue? hb).symm,
            (ne_break_of_hexValue? hc).symm, (ne_break_of_hexValue? hd).symm⟩
        · have hsize : ¬size ([a, b, c, d] ++ more) < 4 := by
            have := length_le_size ([a, b, c, d] ++ more)
            simp only [List.length_append, List.length_cons, List.length_nil] at this
            omega
          unfold codeUnit
          rw [if_neg hsize]
          simp only [List.cons_append, List.nil_append, ha, hb, hc, hd]
      · exact absurd h (by simp [flawAt])
    · exact absurd h (by simp [flawAt])

theorem takes_lowSurrogate {total : Nat} {unread rest : List Char} {n : Nat}
    (h : lowSurrogate total unread = .ok (n, rest)) : Takes lowSurrogate unread n rest := by
  unfold lowSurrogate at h
  split at h
  · exact absurd h (by simp [flawAtEnd])
  · exact absurd h (by simp [flawAtEnd])
  · next digits =>
    cases hunit : codeUnit total digits with
    | error flaw =>
      rw [hunit] at h
      exact absurd h (by simp [bind, Except.bind])
    | ok found =>
      obtain ⟨m, rest'⟩ := found
      rw [hunit] at h
      simp only [bind, Except.bind] at h
      split at h
      · next hlow =>
        obtain ⟨rfl, rfl⟩ := Prod.mk.inj (Except.ok.inj h)
        obtain ⟨front, rfl, hbreak, hread⟩ := takes_codeUnit hunit
        refine ⟨'\\' :: 'u' :: front, rfl, ?_, fun total more hmore => ?_⟩
        · simpa using hbreak
        · simp only [List.cons_append, lowSurrogate, hread total more hmore, bind, Except.bind, hlow,
            if_true]
          rfl
      · exact absurd h (by simp [flawAt])
  · exact absurd h (by simp [flawAt])
  · exact absurd h (by simp [flawAt])

theorem takes_escaped {total : Nat} {unread rest : List Char} {c : Char}
    (h : escaped total unread = .ok (c, rest)) : Takes escaped unread c rest := by
  unfold escaped at h
  split at h
  · exact absurd h (by simp [flawAtEnd])
  · next digits =>
    cases hunit : codeUnit total digits with
    | error flaw =>
      rw [hunit] at h
      exact absurd h (by simp [bind, Except.bind])
    | ok found =>
      obtain ⟨n, rest'⟩ := found
      rw [hunit] at h
      simp only [bind, Except.bind] at h
      split at h
      · exact absurd h (by simp [flawAt])
      · next hlow =>
        split at h
        · next hhigh =>
          cases hsecond : lowSurrogate total rest' with
          | error flaw =>
            rw [hsecond] at h
            exact absurd h (by simp)
          | ok found =>
            obtain ⟨m, rest''⟩ := found
            rw [hsecond] at h
            obtain ⟨rfl, rfl⟩ := Prod.mk.inj (Except.ok.inj h)
            obtain ⟨second, rfl, hbreak', hread'⟩ := takes_lowSurrogate hsecond
            obtain ⟨first, rfl, hbreak, hread⟩ := takes_codeUnit hunit
            refine ⟨'u' :: (first ++ second), by simp, ?_, fun total more hmore => ?_⟩
            · simp [hbreak, hbreak']
            · have hhead : (second ++ more).head? = (second ++ rest'').head? := by
                cases second with
                | nil => exact hmore
                | cons d ds => rfl
              simp only [List.cons_append, List.append_assoc, escaped, hread total _ hhead,
                hread' total more hmore, bind, Except.bind, hlow, hhigh, if_true, if_false,
                Bool.false_eq_true]
              rfl
        · next hhigh =>
          obtain ⟨rfl, rfl⟩ := Prod.mk.inj (Except.ok.inj h)
          obtain ⟨front, rfl, hbreak, hread⟩ := takes_codeUnit hunit
          refine ⟨'u' :: front, rfl, ?_, fun total more hmore => ?_⟩
          · simpa using hbreak
          · simp only [List.cons_append, escaped, hread total more hmore, bind, Except.bind, hlow, hhigh,
              if_false, Bool.false_eq_true]
            rfl
  · split at h
    all_goals first
      | obtain ⟨rfl, rfl⟩ := Prod.mk.inj (Except.ok.inj h)
        exact ⟨[_], rfl, by decide, fun _ _ _ => rfl⟩
      | exact absurd h (by simp [flawAt])

theorem stringBody_escaped {total : Nat} {unread rest : List Char} {c : Char}
    (h : escaped total unread = .ok (c, rest)) :
    stringBody total ('\\' :: unread) = (stringBody total rest).map fun (s, rest) => (c :: s, rest) := by
  rw [stringBody]
  split
  · next heq =>
    rw [h] at heq
    exact absurd heq (by simp)
  · next heq =>
    rw [h] at heq
    obtain ⟨rfl, rfl⟩ := Prod.mk.inj (Except.ok.inj heq)
    rfl

theorem stringBody_plain {c : Char} (hquote : c ≠ '"') (hslash : c ≠ '\\') (hc : ¬c.toNat < 0x20)
    (total : Nat) (unread : List Char) :
    stringBody total (c :: unread) =
      (stringBody total unread).map fun (s, rest) => (c :: s, rest) := by
  rw [stringBody]
  · rw [if_neg hc]
  · exact hquote
  · exact hslash

theorem takes_stringBody {total : Nat} {unread rest s : List Char}
    (h : stringBody total unread = .ok (s, rest)) : Takes stringBody unread s rest := by
  fun_induction stringBody total unread generalizing s with
  | case1 => exact absurd h (by simp [flawAtEnd])
  | case2 more =>
    obtain ⟨rfl, rfl⟩ := Prod.mk.inj (Except.ok.inj h)
    exact ⟨['"'], rfl, by decide, fun total more _ => by rw [List.singleton_append, stringBody]⟩
  | case3 => exact absurd h (by simp)
  | case4 unread c more hc ih =>
    obtain ⟨⟨s', rest'⟩, hs, heq⟩ := Markup.exceptMap_eq_ok.mp h
    obtain ⟨rfl, rfl⟩ := Prod.mk.inj heq
    obtain ⟨second, rfl, hbreak', hread'⟩ := ih hs
    obtain ⟨first, rfl, hbreak, hread⟩ := takes_escaped hc
    refine ⟨'\\' :: (first ++ second), by simp, by simp [hbreak, hbreak'], fun total more hmore => ?_⟩
    have hhead : (second ++ more).head? = (second ++ rest').head? := by
      cases second with
      | nil => exact hmore
      | cons d ds => rfl
    rw [List.cons_append, List.append_assoc, stringBody_escaped (hread total _ hhead),
      hread' total more hmore]
    rfl
  | case5 => exact absurd h (by simp [flawAt])
  | case6 c more hquote hslash hc ih =>
    obtain ⟨⟨s', rest'⟩, hs, heq⟩ := Markup.exceptMap_eq_ok.mp h
    obtain ⟨rfl, rfl⟩ := Prod.mk.inj heq
    have hne : c ≠ '\n' := by
      rintro rfl
      exact hc (by decide)
    refine (ih hs).cons hne fun total text more hread => ?_
    rw [stringBody_plain hquote hslash hc, hread]
    rfl

/-! ## Numbers -/

section

variable {total significand : Nat} {negative : Bool} {power : Int} {unread rest : List Char} {v : Json}

theorem ne_break_of_isDigit {c : Char} (h : c.isDigit = true) : c ≠ '\n' := by
  rintro rfl
  exact absurd h (by decide)

/-- Behind the digits at the front of a text, there is no digit. -/
theorem head?_dropWhile_isDigit (text : List Char) :
    ∀ c, (text.dropWhile Char.isDigit).head? = some c → c.isDigit = false := by
  intro c hc
  have hnot := List.head?_dropWhile_not Char.isDigit text
  rw [hc] at hnot
  exact hnot

/-- The digits of a text end where something else stands. -/
theorem digits_append {front more : List Char} (hfront : ∀ c ∈ front, c.isDigit = true)
    (hmore : ∀ c, more.head? = some c → c.isDigit = false) :
    (front ++ more).takeWhile Char.isDigit = front ∧ (front ++ more).dropWhile Char.isDigit = more := by
  rw [List.takeWhile_append_of_pos hfront, List.dropWhile_append_of_pos hfront]
  cases more with
  | nil => simp
  | cons c more =>
    have hc : ¬c.isDigit = true := by simp [hmore c rfl]
    rw [List.takeWhile_cons_of_neg hc, List.dropWhile_cons_of_neg hc, List.append_nil]
    exact ⟨rfl, rfl⟩

theorem mem_takeWhile_isDigit (text : List Char) :
    ∀ c ∈ text.takeWhile Char.isDigit, c.isDigit = true :=
  fun _ hc => List.mem_takeWhile_imp hc

theorem takes_scaled (h : scaled total negative significand power unread = .ok (v, rest)) :
    Takes (fun total text => scaled total negative significand power text) unread v rest := by
  simp only [scaled] at h
  split at h
  · next y hy =>
    obtain ⟨rfl, rfl⟩ := Prod.mk.inj (Except.ok.inj h)
    refine ⟨[], rfl, List.not_mem_nil, fun total more _ => ?_⟩
    simp only [scaled, hy, List.nil_append]
  · exact absurd h (by simp [flawAt])

theorem takes_powerDigits {down : Bool} {n : Nat}
    (h : powerDigits total negative significand power down n unread = .ok (v, rest)) :
    Takes (fun total text => powerDigits total negative significand power down n text) unread v rest := by
  fun_induction powerDigits total negative significand power down n unread with
  | case1 n =>
    obtain ⟨front, hfront, hbreak, hread⟩ := takes_scaled h
    obtain ⟨rfl, rfl⟩ := List.append_eq_nil_iff.mp hfront.symm
    refine ⟨[], rfl, hbreak, fun total more hmore => ?_⟩
    rw [List.head?_nil, List.head?_eq_none_iff] at hmore
    subst hmore
    exact hread total [] rfl
  | case2 => exact absurd h (by simp [flawAt])
  | case3 n c cs hc next hnext hsmall =>
    obtain ⟨rfl, rfl⟩ := Prod.mk.inj (Except.ok.inj h)
    refine ⟨c :: cs.takeWhile Char.isDigit, ?_, ?_, fun total more hmore => ?_⟩
    · rw [List.cons_append, List.takeWhile_append_dropWhile]
    · rw [List.mem_cons, not_or]
      exact ⟨(ne_break_of_isDigit hc).symm,
        fun hmem => ne_break_of_isDigit (mem_takeWhile_isDigit cs _ hmem) rfl⟩
    · have hspan := @digits_append (cs.takeWhile Char.isDigit) more (mem_takeWhile_isDigit cs)
        (by rw [hmore]; exact head?_dropWhile_isDigit cs)
      simp only [List.cons_append, powerDigits]
      rw [if_pos hc, if_pos hnext, if_neg hsmall, hspan.2]
  | case4 n c cs hc next hnext ih =>
    refine (ih h).cons (ne_break_of_isDigit hc) fun total text more hread => ?_
    rw [powerDigits, if_pos hc, if_neg hnext]
    exact hread
  | case5 n c cs hc =>
    obtain ⟨front, hfront, hbreak, hread⟩ := takes_scaled h
    refine ⟨front, hfront, hbreak, fun total more hmore => ?_⟩
    have hsame := rest_of_scaled h
    obtain rfl : front = [] := by
      rw [hsame] at hfront
      simpa using hfront
    cases more with
    | nil =>
      rw [hsame] at hmore
      exact absurd hmore (by simp)
    | cons d more =>
      obtain rfl : d = c := by
        rw [hsame] at hmore
        simpa using hmore
      simp only [List.nil_append, powerDigits]
      rw [if_neg hc]
      exact hread total (d :: more) hmore

/-- Reads the digits of an exponent whose sign has been read. -/
def exponentDigits (negative : Bool) (significand : Nat) (power : Int) (down : Bool) (total : Nat)
    (digits : List Char) : Except Flaw (Json × List Char) :=
  match digits with
  | [] => flawAtEnd total .endForValue
  | c :: cs =>
    if c.isDigit then powerDigits total negative significand power down (c.toNat - '0'.toNat) cs
    else flawAt total digits 1 .badNumber

theorem exponent_of_ne {c : Char} (hplus : c ≠ '+') (hminus : c ≠ '-') (total : Nat) (negative : Bool)
    (significand : Nat) (power : Int) (cs : List Char) :
    exponent total negative significand power (c :: cs) =
      exponentDigits negative significand power false total (c :: cs) := by
  unfold exponent
  split
  next heq =>
  split at heq
  · next rest hsign => exact absurd (List.cons.inj hsign).1 hplus
  · next rest hsign => exact absurd (List.cons.inj hsign).1 hminus
  · obtain ⟨rfl, rfl⟩ := Prod.mk.inj heq
    rfl

theorem takes_exponentDigits {down : Bool}
    (h : exponentDigits negative significand power down total unread = .ok (v, rest)) :
    Takes (exponentDigits negative significand power down) unread v rest := by
  unfold exponentDigits at h
  split at h
  · exact absurd h (by simp [flawAtEnd])
  · next c cs =>
    split at h
    · next hc =>
      refine (takes_powerDigits h).cons (ne_break_of_isDigit hc) fun total text more hread => ?_
      simp only [exponentDigits]
      rw [if_pos hc]
      exact hread
    · exact absurd h (by simp [flawAt])

/-- A reader that does as another one does on the texts that begin like a given one. -/
theorem Takes.congr {read read' : Nat → List Char → Except Flaw (α × List Char)} {text more : List Char}
    {a : α} (h : Takes read text a more)
    (hread : ∀ total other, other.head? = text.head? → read' total other = read total other) :
    Takes read' text a more := by
  obtain ⟨front, rfl, hbreak, hfront⟩ := h
  refine ⟨front, rfl, hbreak, fun total other hother => ?_⟩
  rw [hread total _ ?_]
  · exact hfront total other hother
  · cases front with
    | nil => exact hother
    | cons c front => rfl

/-- An exponent is a sign, perhaps, and digits. -/
theorem takes_exponent (h : exponent total negative significand power unread = .ok (v, rest)) :
    Takes (fun total text => exponent total negative significand power text) unread v rest := by
  cases unread with
  | nil => exact absurd h (by simp [exponent, flawAtEnd])
  | cons c cs =>
    by_cases hplus : c = '+'
    · subst hplus
      exact (takes_exponentDigits h).cons (by decide) fun total text more hread => hread
    · by_cases hminus : c = '-'
      · subst hminus
        exact (takes_exponentDigits h).cons (by decide) fun total text more hread => hread
      · rw [exponent_of_ne hplus hminus] at h
        refine (takes_exponentDigits h).congr fun total other hother => ?_
        obtain ⟨more, rfl⟩ := List.head?_eq_some_iff.mp hother
        exact exponent_of_ne hplus hminus total negative significand power more

theorem exponent?_of_head {text : List Char} (h : ∀ c, text.head? = some c → c ≠ 'e' ∧ c ≠ 'E')
    (total : Nat) (negative : Bool) (significand : Nat) (power : Int) :
    exponent? total negative significand power text = scaled total negative significand power text := by
  unfold exponent?
  split
  · exact absurd rfl (h 'e' rfl).1
  · exact absurd rfl (h 'E' rfl).2
  · rfl

theorem takes_exponent? (h : exponent? total negative significand power unread = .ok (v, rest)) :
    Takes (fun total text => exponent? total negative significand power text) unread v rest := by
  by_cases hhead : ∀ c, unread.head? = some c → c ≠ 'e' ∧ c ≠ 'E'
  · rw [exponent?_of_head hhead] at h
    refine (takes_scaled h).congr fun total other hother => ?_
    exact exponent?_of_head (by rwa [hother]) total negative significand power
  · unfold exponent? at h
    split at h
    · exact (takes_exponent h).cons (by decide) fun total text more hread => hread
    · exact (takes_exponent h).cons (by decide) fun total text more hread => hread
    · next he hE =>
      refine absurd (fun c hc => ?_) hhead
      obtain ⟨more, rfl⟩ := List.head?_eq_some_iff.mp hc
      exact ⟨fun heq => he more (heq ▸ rfl), fun heq => hE more (heq ▸ rfl)⟩

/-- A reader that takes the digits at the front of a text, and goes on behind them. -/
theorem Takes.digits {read : Nat → List Char → Except Flaw (Json × List Char)}
    {next : Nat → List Char → Except Flaw (Json × List Char)}
    (h : Takes next (unread.dropWhile Char.isDigit) v rest)
    (hread : ∀ total more, (∀ c, more.head? = some c → c.isDigit = false) →
      read total (unread.takeWhile Char.isDigit ++ more) = next total more) :
    Takes read unread v rest := by
  obtain ⟨front, hfront, hbreak, hnext⟩ := h
  refine ⟨unread.takeWhile Char.isDigit ++ front, ?_, ?_, fun total more hmore => ?_⟩
  · rw [List.append_assoc, ← hfront, List.takeWhile_append_dropWhile]
  · rw [List.mem_append, not_or]
    exact ⟨fun hmem => ne_break_of_isDigit (mem_takeWhile_isDigit unread _ hmem) rfl, hbreak⟩
  · have hhead : (front ++ more).head? = (unread.dropWhile Char.isDigit).head? := by
      rw [hfront]
      cases front with
      | nil => exact hmore
      | cons c front => rfl
    rw [List.append_assoc, hread total _ ?_]
    · exact hnext total more hmore
    · rw [hhead]
      exact head?_dropWhile_isDigit unread

theorem takes_fraction (h : fraction total negative significand power unread = .ok (v, rest)) :
    Takes (fun total text => fraction total negative significand power text) unread v rest := by
  simp only [fraction] at h
  split at h
  · split at h
    · exact absurd h (by simp [flawAtEnd])
    · exact absurd h (by simp [flawAt])
  · next hdigits =>
    refine (takes_exponent? h).digits fun total more hmore => ?_
    obtain ⟨htake, hdrop⟩ := @digits_append (unread.takeWhile Char.isDigit) more
      (mem_takeWhile_isDigit unread) hmore
    simp only [fraction]
    rw [htake, hdrop, if_neg hdigits]

/-- Reads on behind the digits of a number before its point, from which `n` has been gathered. -/
def numberEnd (negative : Bool) (n left : Nat) (total : Nat) (rest : List Char) :
    Except Flaw (Json × List Char) :=
  match rest with
  | '.' :: after => fraction total negative n left after
  | 'e' :: after => exponent total negative n left after
  | 'E' :: after => exponent total negative n left after
  | _ =>
    if left != 0 then scaled total negative n left rest
    else if !negative then .ok (integer n, rest)
    else if n == 0 || 1 <<< 63 < n then
      .ok (double { Double.ofInt (n : Int) with negative }, rest)
    else .ok (integer (-(n : Int)), rest)

theorem takes_ok (a : α) (rest : List Char) : Takes (fun _ text => .ok (a, text)) rest a rest :=
  ⟨[], rfl, List.not_mem_nil, fun _ _ _ => rfl⟩

theorem takes_numberEnd {n left : Nat} (h : numberEnd negative n left total unread = .ok (v, rest)) :
    Takes (numberEnd negative n left) unread v rest := by
  unfold numberEnd at h
  split at h
  · exact (takes_fraction h).cons (by decide) fun total text more hread => hread
  · exact (takes_exponent h).cons (by decide) fun total text more hread => hread
  · exact (takes_exponent h).cons (by decide) fun total text more hread => hread
  · next hpoint he hE =>
    have hother : ∀ total other, other.head? = unread.head? → numberEnd negative n left total other =
        if left != 0 then scaled total negative n left other
        else if !negative then .ok (integer n, other)
        else if n == 0 || 1 <<< 63 < n then
          .ok (double { Double.ofInt (n : Int) with negative }, other)
        else .ok (integer (-(n : Int)), other) := by
      intro total other hother
      unfold numberEnd
      split
      · next after =>
        obtain ⟨more, hmore⟩ := List.head?_eq_some_iff.mp hother.symm
        exact absurd hmore (hpoint more)
      · next after =>
        obtain ⟨more, hmore⟩ := List.head?_eq_some_iff.mp hother.symm
        exact absurd hmore (he more)
      · next after =>
        obtain ⟨more, hmore⟩ := List.head?_eq_some_iff.mp hother.symm
        exact absurd hmore (hE more)
      · rfl
    split at h
    · next hleft =>
      refine (takes_scaled h).congr fun total other hhead => ?_
      rw [hother total other hhead, if_pos hleft]
    · next hleft =>
      split at h
      · next hsign =>
        obtain ⟨rfl, rfl⟩ := Prod.mk.inj (Except.ok.inj h)
        refine (takes_ok (integer n) unread).congr fun total other hhead => ?_
        rw [hother total other hhead, if_neg hleft, if_pos hsign]
      · next hsign =>
        split at h
        · next hlarge =>
          obtain ⟨rfl, rfl⟩ := Prod.mk.inj (Except.ok.inj h)
          refine (takes_ok (double { Double.ofInt (n : Int) with negative }) unread).congr
            fun total other hhead => ?_
          rw [hother total other hhead, if_neg hleft, if_neg hsign, if_pos hlarge]
        · next hlarge =>
          obtain ⟨rfl, rfl⟩ := Prod.mk.inj (Except.ok.inj h)
          refine (takes_ok (integer (-(n : Int))) unread).congr fun total other hhead => ?_
          rw [hother total other hhead, if_neg hleft, if_neg hsign, if_neg hlarge]

/-- **A number is read up to the first character that does not belong to it.** -/
theorem takes_number (h : number total negative unread = .ok (v, rest)) :
    Takes (fun total text => number total negative text) unread v rest := by
  simp only [number] at h
  split at h
  · split at h
    · exact absurd h (by simp [flawAtEnd])
    · exact absurd h (by simp [flawAt])
  · exact absurd h (by simp [flawAt])
  · next hempty hzero =>
    refine (takes_numberEnd h).digits fun total more hmore => ?_
    obtain ⟨htake, hdrop⟩ := @digits_append (unread.takeWhile Char.isDigit) more
      (mem_takeWhile_isDigit unread) hmore
    simp only [number]
    rw [htake, hdrop]
    split
    · next hnil => exact absurd hnil hempty
    · next c cs hcons => exact absurd hcons (hzero c cs)
    · rfl

end

end DashboardMarkup.Json
