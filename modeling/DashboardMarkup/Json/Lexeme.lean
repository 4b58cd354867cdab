import DashboardMarkup.Json.Flaw
import DashboardMarkup.Number.Whole
import DashboardMarkup.Text.Blank

/-!
# Words, strings and numbers of JSON

Each reader gets the unread text and the size of the whole text, so that the bytes read so far are the
difference. It yields a value and the text after it, which is never longer than what it was given
(`length_word_le`, `length_stringBody_lt`, `length_number_lt`).
-/

namespace DashboardMarkup.Json

open Text (size)

/-- The flaw shown by the byte `ahead` bytes into the unread text. -/
def flawAt {α : Type} (total : Nat) (unread : List Char) (ahead : Nat) (cause : Flaw.Cause) :
    Except Flaw α :=
  .error ⟨cause, total - size unread + ahead⟩

/-- The flaw shown by the end of the text. -/
def flawAtEnd {α : Type} (total : Nat) (cause : Flaw.Cause) : Except Flaw α :=
  .error ⟨cause, total⟩

/-! ## Words -/

/-- Reads the letters of a word. -/
def word (total : Nat) : List Char → List Char → Except Flaw (List Char)
  | [], unread => .ok unread
  | _ :: _, [] => flawAtEnd total .endForValue
  | w :: ws, c :: cs => if w == c then word total ws cs else flawAt total (c :: cs) 1 .badWord

theorem length_word_le {total : Nat} {letters unread rest : List Char}
    (h : word total letters unread = .ok rest) : rest.length ≤ unread.length := by
  fun_induction word total letters unread with
  | case1 => simp_all
  | case2 => simp [flawAtEnd] at h
  | case3 w ws c cs hwc ih =>
    have := ih h
    simp only [List.length_cons]
    omega
  | case4 => simp [flawAt] at h

/-! ## Strings -/

/-- The value of a hexadecimal digit. -/
def hexValue? (c : Char) : Option Nat :=
  if c.isDigit then some (c.toNat - '0'.toNat)
  else if 'a' ≤ c && c ≤ 'f' then some (c.toNat - 'a'.toNat + 10)
  else if 'A' ≤ c && c ≤ 'F' then some (c.toNat - 'A'.toNat + 10)
  else none

/-- Reads the four hexadecimal digits of a code unit. -/
def codeUnit (total : Nat) (unread : List Char) : Except Flaw (Nat × List Char) :=
  if size unread < 4 then flawAtEnd total .endInString
  else
    match unread with
    | a :: b :: c :: d :: rest =>
      match hexValue? a, hexValue? b, hexValue? c, hexValue? d with
      | some a, some b, some c, some d => .ok (((a * 16 + b) * 16 + c) * 16 + d, rest)
      | _, _, _, _ => flawAt total unread 4 .badEscape
    | _ => flawAt total unread 4 .badEscape

theorem length_codeUnit_lt {total : Nat} {unread rest : List Char} {n : Nat}
    (h : codeUnit total unread = .ok (n, rest)) : rest.length < unread.length := by
  simp only [codeUnit, flawAt, flawAtEnd] at h
  split at h
  · simp at h
  · split at h
    · split at h
      · simp only [Except.ok.injEq, Prod.mk.injEq] at h
        obtain ⟨-, rfl⟩ := h
        simp only [List.length_cons]
        omega
      · simp at h
    · simp at h

/-- Whether a code unit is the first half of a pair. -/
def isHighSurrogate (n : Nat) : Bool :=
  0xD800 ≤ n && n ≤ 0xDBFF

/-- Whether a code unit is the second half of a pair. -/
def isLowSurrogate (n : Nat) : Bool :=
  0xDC00 ≤ n && n ≤ 0xDFFF

/-- Reads the second half of a pair, written as an escape too. -/
def lowSurrogate (total : Nat) (unread : List Char) : Except Flaw (Nat × List Char) :=
  match unread with
  | [] => flawAtEnd total .endInString
  | '\\' :: [] => flawAtEnd total .endInString
  | '\\' :: 'u' :: digits => do
    let (n, rest) ← codeUnit total digits
    if isLowSurrogate n then return (n, rest) else flawAt total rest 0 .loneSurrogate
  | '\\' :: other => flawAt total other 1 .halfPair
  | _ => flawAt total unread 1 .halfPair

theorem length_lowSurrogate_lt {total : Nat} {unread rest : List Char} {n : Nat}
    (h : lowSurrogate total unread = .ok (n, rest)) : rest.length < unread.length := by
  simp only [lowSurrogate, flawAt, flawAtEnd] at h
  split at h
  · simp at h
  · simp at h
  · next digits =>
    cases hc : codeUnit total digits with
    | error e => simp [hc, bind, Except.bind] at h
    | ok r =>
      simp only [hc, bind, Except.bind] at h
      split at h
      · simp only [pure, Except.pure, Except.ok.injEq, Prod.mk.injEq] at h
        obtain ⟨-, rfl⟩ := h
        have := @length_codeUnit_lt total digits r.2 r.1 hc
        simp only [List.length_cons]
        omega
      · simp at h
  · simp at h
  · simp at h

/-- Reads what follows a backslash. -/
def escaped (total : Nat) (unread : List Char) : Except Flaw (Char × List Char) :=
  match unread with
  | [] => flawAtEnd total .endInString
  | 'u' :: digits => do
    let (n, rest) ← codeUnit total digits
    if isLowSurrogate n then flawAt total rest 0 .loneSurrogate
    else if isHighSurrogate n then do
      let (m, rest) ← lowSurrogate total rest
      return (Char.ofNat ((n - 0xD800) * 0x400 + (m - 0xDC00) + 0x10000), rest)
    else return (Char.ofNat n, rest)
  | c :: rest =>
    match c with
    | '"' => .ok ('"', rest)
    | '\\' => .ok ('\\', rest)
    | '/' => .ok ('/', rest)
    | 'b' => .ok ('\x08', rest)
    | 'f' => .ok ('\x0c', rest)
    | 'n' => .ok ('\n', rest)
    | 'r' => .ok ('\r', rest)
    | 't' => .ok ('\t', rest)
    | _ => flawAt total unread 1 .badEscape

theorem length_escaped_lt {total : Nat} {unread rest : List Char} {c : Char}
    (h : escaped total unread = .ok (c, rest)) : rest.length < unread.length := by
  simp only [escaped, flawAt, flawAtEnd] at h
  split at h
  · simp at h
  · next digits =>
    cases hc : codeUnit total digits with
    | error e => simp [hc, bind, Except.bind] at h
    | ok r =>
      have hr := @length_codeUnit_lt total digits r.2 r.1 hc
      simp only [hc, bind, Except.bind] at h
      split at h
      · simp at h
      · split at h
        · cases hl : lowSurrogate total r.2 with
          | error e => simp [hl] at h
          | ok s =>
            have hs := @length_lowSurrogate_lt total r.2 s.2 s.1 hl
            simp only [hl, pure, Except.pure, Except.ok.injEq, Prod.mk.injEq] at h
            obtain ⟨-, rfl⟩ := h
            simp only [List.length_cons]
            omega
        · simp only [pure, Except.pure, Except.ok.injEq, Prod.mk.injEq] at h
          obtain ⟨-, rfl⟩ := h
          simp only [List.length_cons]
          omega
  · split at h <;> simp_all

/-- Reads a string after its opening quote. -/
def stringBody (total : Nat) (unread : List Char) : Except Flaw (List Char × List Char) :=
  match unread with
  | [] => flawAtEnd total .endInString
  | '"' :: rest => .ok ([], rest)
  | '\\' :: rest =>
    match _h : escaped total rest with
    | .error e => .error e
    | .ok (c, rest) => (stringBody total rest).map fun (s, rest) => (c :: s, rest)
  | c :: rest =>
    if c.toNat < 0x20 then flawAt total rest 0 .controlCharacter
    else (stringBody total rest).map fun (s, rest) => (c :: s, rest)
termination_by unread.length
decreasing_by
  · have := length_escaped_lt _h
    simp only [List.length_cons]
    omega
  · simp

theorem length_stringBody_lt {total : Nat} {unread rest s : List Char}
    (h : stringBody total unread = .ok (s, rest)) : rest.length < unread.length := by
  fun_induction stringBody total unread generalizing s with
  | case1 => simp [flawAtEnd] at h
  | case2 r => simp_all
  | case3 => simp at h
  | case4 r c r' hc ih =>
    cases hs : stringBody total r' with
    | error e => simp [hs, Except.map] at h
    | ok p =>
      simp only [hs, Except.map, Except.ok.injEq, Prod.mk.injEq] at h
      obtain ⟨-, rfl⟩ := h
      have := ih hs
      have := length_escaped_lt hc
      simp only [List.length_cons]
      omega
  | case5 => simp [flawAt] at h
  | case6 c r hq hb hc ih =>
    cases hs : stringBody total r with
    | error e => simp [hs, Except.map] at h
    | ok p =>
      simp only [hs, Except.map, Except.ok.injEq, Prod.mk.injEq] at h
      obtain ⟨-, rfl⟩ := h
      have := ih hs
      simp only [List.length_cons]
      omega

/-! ## Numbers

The digits of a number are gathered into a significand of sixty-four bits. Once the next digit would
not fit, the remaining digits are left out, and count only as powers of ten when they stand before the
point. A double is made of significand and power of ten in two roundings: the significand is rounded
first, and then multiplied or divided by the double nearest to the power of ten. -/

/-- The largest significand. -/
def maxSignificand : Nat := 18446744073709551615

/-- The largest exponent that is read digit by digit. -/
def maxPower : Nat := 2147483647

/-- Appends digits to a significand while it fits: the significand and the number of digits left. -/
def gather : Nat → List Char → Nat × Nat
  | n, [] => (n, 0)
  | n, c :: cs =>
    let next := 10 * n + (c.toNat - '0'.toNat)
    if maxSignificand < next then (n, cs.length + 1) else gather next cs

/-- The double nearest to a power of ten. -/
def powerOfTen (n : Nat) : Double :=
  Double.ofInt (Nat.pow 10 n)

/-- The largest power of ten that is a double. -/
def maxTenth : Nat := 308

/-- A double multiplied by a power of ten. A power below the least one that is a double is applied in
two steps; past two full steps nothing is left of a significand. -/
def scale? (x : Double) (power : Int) : Option Double :=
  let n := power.natAbs
  if n ≤ maxTenth then
    if 0 ≤ power then x.scaleUp? (powerOfTen n) else x.scaleDown? (powerOfTen n)
  else if x.mantissa == 0 then some x
  else if 0 ≤ power then none
  else if 2 * maxTenth < n then some (Double.zero x.negative)
  else (x.scaleDown? (powerOfTen maxTenth)).bind fun y => y.scaleDown? (powerOfTen (n - maxTenth))

/-- The number of a sign, a significand and a power of ten, whose text ends before `rest`. -/
def scaled (total : Nat) (negative : Bool) (significand : Nat) (power : Int) (rest : List Char) :
    Except Flaw (Json × List Char) :=
  let x := Double.ofInt (significand : Int)
  match scale? { x with negative } power with
  | some y => .ok (double y, rest)
  | none => flawAt total rest 0 .hugeNumber

/-- Reads the digits of an exponent, of which `n` has been read already. A power past `maxPower` makes
any number zero or too large. -/
def powerDigits (total : Nat) (negative : Bool) (significand : Nat) (power : Int) (down : Bool) :
    Nat → List Char → Except Flaw (Json × List Char)
  | n, [] => scaled total negative significand (power + if down then -(n : Int) else n) []
  | n, c :: cs =>
    if c.isDigit then
      let next := 10 * n + (c.toNat - '0'.toNat)
      if maxPower < next then
        if significand != 0 && !down then flawAt total cs 0 .hugeNumber
        else .ok (double (Double.zero negative), cs.dropWhile Char.isDigit)
      else powerDigits total negative significand power down next cs
    else scaled total negative significand (power + if down then -(n : Int) else n) (c :: cs)

/-- Reads an exponent after its letter. -/
def exponent (total : Nat) (negative : Bool) (significand : Nat) (power : Int)
    (unread : List Char) : Except Flaw (Json × List Char) :=
  let (down, digits) := match unread with
    | '+' :: rest => (false, rest)
    | '-' :: rest => (true, rest)
    | _ => (false, unread)
  match digits with
  | [] => flawAtEnd total .endForValue
  | c :: cs =>
    if c.isDigit then
      powerDigits total negative significand power down (c.toNat - '0'.toNat) cs
    else flawAt total digits 1 .badNumber

/-- Reads what may follow the digits of a number with a point or too many digits: an exponent. -/
def exponent? (total : Nat) (negative : Bool) (significand : Nat) (power : Int)
    (unread : List Char) : Except Flaw (Json × List Char) :=
  match unread with
  | 'e' :: rest => exponent total negative significand power rest
  | 'E' :: rest => exponent total negative significand power rest
  | _ => scaled total negative significand power unread

/-- Reads the digits after a point. -/
def fraction (total : Nat) (negative : Bool) (significand : Nat) (power : Int)
    (unread : List Char) : Except Flaw (Json × List Char) :=
  let digits := unread.takeWhile Char.isDigit
  let rest := unread.dropWhile Char.isDigit
  if digits.isEmpty then
    match rest with
    | [] => flawAtEnd total .endForValue
    | _ => flawAt total rest 1 .badNumber
  else
    let (n, left) := gather significand digits
    exponent? total negative n (power - (digits.length - left : Nat)) rest

/-- Reads a number after its sign. Without point and exponent it is an integer if it fits sixty-four
bits, except for the negative zero. -/
def number (total : Nat) (negative : Bool) (unread : List Char) :
    Except Flaw (Json × List Char) :=
  let digits := unread.takeWhile Char.isDigit
  let rest := unread.dropWhile Char.isDigit
  match digits with
  | [] =>
    match rest with
    | [] => flawAtEnd total .endForValue
    | _ => flawAt total rest 1 .badNumber
  | '0' :: c :: more => flawAt total (c :: more ++ rest) 1 .badNumber
  | _ =>
    let (n, left) := gather 0 digits
    match rest with
    | '.' :: after => fraction total negative n left after
    | 'e' :: after => exponent total negative n left after
    | 'E' :: after => exponent total negative n left after
    | _ =>
      if left != 0 then scaled total negative n left rest
      else if !negative then .ok (integer n, rest)
      else if n == 0 || 1 <<< 63 < n then
        .ok (double { Double.ofInt (n : Int) with negative }, rest)
      else .ok (integer (-(n : Int)), rest)

theorem rest_of_scaled {total n : Nat} {negative : Bool} {power : Int} {unread rest : List Char}
    {v : Json} (h : scaled total negative n power unread = .ok (v, rest)) : rest = unread := by
  simp only [scaled, flawAt] at h
  split at h
  · simp only [Except.ok.injEq, Prod.mk.injEq] at h
    exact h.2.symm
  · simp at h

theorem length_powerDigits_le {total significand n : Nat} {negative down : Bool} {power : Int}
    {unread rest : List Char} {v : Json}
    (h : powerDigits total negative significand power down n unread = .ok (v, rest)) :
    rest.length ≤ unread.length := by
  fun_induction powerDigits total negative significand power down n unread with
  | case1 n => simp [rest_of_scaled h]
  | case2 => simp [flawAt] at h
  | case3 n c cs =>
    simp only [Except.ok.injEq, Prod.mk.injEq] at h
    have := (List.dropWhile_sublist (l := cs) Char.isDigit).length_le
    rw [← h.2, List.length_cons]
    omega
  | case4 n c cs _ _ _ ih =>
    have := ih h
    simp only [List.length_cons]
    omega
  | case5 => simp [rest_of_scaled h]

theorem length_exponent_le {total significand : Nat} {negative : Bool} {power : Int}
    {unread rest : List Char} {v : Json}
    (h : exponent total negative significand power unread = .ok (v, rest)) :
    rest.length ≤ unread.length := by
  simp only [exponent, flawAt, flawAtEnd] at h
  split at h
  · simp at h
  · next c cs hs =>
    have hlen : cs.length + 1 ≤ unread.length := by
      split at hs
      all_goals
        simp only at hs
        subst hs
        simp
    split at h
    · have := length_powerDigits_le h
      omega
    · simp at h

theorem length_exponent?_le {total significand : Nat} {negative : Bool} {power : Int}
    {unread rest : List Char} {v : Json}
    (h : exponent? total negative significand power unread = .ok (v, rest)) :
    rest.length ≤ unread.length := by
  simp only [exponent?] at h
  split at h
  · exact Nat.le_succ_of_le (length_exponent_le h)
  · exact Nat.le_succ_of_le (length_exponent_le h)
  · simp [rest_of_scaled h]

theorem length_fraction_le {total significand : Nat} {negative : Bool} {power : Int}
    {unread rest : List Char} {v : Json}
    (h : fraction total negative significand power unread = .ok (v, rest)) :
    rest.length ≤ unread.length := by
  simp only [fraction, flawAt, flawAtEnd] at h
  split at h
  · split at h <;> simp at h
  · have := length_exponent?_le h
    have := (List.dropWhile_sublist (l := unread) Char.isDigit).length_le
    omega

/-- A number has at least one digit. -/
theorem length_number_lt {total : Nat} {negative : Bool} {unread rest : List Char} {v : Json}
    (h : number total negative unread = .ok (v, rest)) : rest.length < unread.length := by
  have hall := congrArg List.length (List.takeWhile_append_dropWhile (p := Char.isDigit) (l := unread))
  simp only [List.length_append] at hall
  simp only [number, flawAt, flawAtEnd] at h
  split at h
  · split at h <;> simp at h
  · simp at h
  · next hempty _ =>
    have hpos : 0 < (unread.takeWhile Char.isDigit).length :=
      List.length_pos_iff.2 fun e => hempty e
    split at h
    · next after hr =>
      have := length_fraction_le h
      rw [hr, List.length_cons] at hall
      omega
    · next after hr =>
      have := length_exponent_le h
      rw [hr, List.length_cons] at hall
      omega
    · next after hr =>
      have := length_exponent_le h
      rw [hr, List.length_cons] at hall
      omega
    · have : rest = unread.dropWhile Char.isDigit := by
        split at h
        · exact rest_of_scaled h
        · split at h
          · simp_all
          · split at h <;> simp_all
      rw [this]
      omega

end DashboardMarkup.Json
