import DashboardMarkup.Json.Lexeme

/-!
# Reading JSON

The reader keeps the arrays and objects that are open on a stack. It alternates between two places:
where a value begins (`value`) and behind a finished value (`close`). Up to 127 values may be open at a
time. Objects are read into sorted objects; of equal keys the last wins.
-/

namespace DashboardMarkup.Json

open Text (isPlainBlank)

/-- An array or object that is open, with what it holds so far. In an object a key waits for its
value. -/
inductive Frame
  | items (done : List Json)
  | members (done : Object) (key : String)

/-- The number of nested brackets at which reading stops. -/
def depthLimit : Nat := 128

/-- The text without the blanks before it. -/
def skipBlanks (text : List Char) : List Char :=
  text.dropWhile isPlainBlank

theorem length_skipBlanks_le (text : List Char) : (skipBlanks text).length ≤ text.length :=
  (List.dropWhile_sublist _).length_le

/-- Reads a key after its opening quote, and the colon. -/
def memberKey (total : Nat) (unread : List Char) : Except Flaw (String × List Char) := do
  let (key, rest) ← stringBody total unread
  match skipBlanks rest with
  | [] => flawAtEnd total .endInObject
  | ':' :: rest => return (String.ofList key, rest)
  | other => flawAt total other 1 .noColon

theorem length_memberKey_lt {total : Nat} {unread rest : List Char} {key : String}
    (h : memberKey total unread = .ok (key, rest)) : rest.length < unread.length := by
  simp only [memberKey, flawAt, flawAtEnd] at h
  cases hs : stringBody total unread with
  | error e => simp [hs, bind, Except.bind] at h
  | ok p =>
    have := @length_stringBody_lt total unread p.2 p.1 hs
    have := length_skipBlanks_le p.2
    simp only [hs, bind, Except.bind] at h
    split at h
    · simp at h
    · next r hr =>
      simp only [pure, Except.pure, Except.ok.injEq, Prod.mk.injEq] at h
      rw [hr, List.length_cons] at this
      rw [← h.2]
      omega
    · simp at h

mutual

/-- Reads on where a value begins, inside the open frames. -/
def value (total : Nat) (stack : List Frame) (unread : List Char) :
    Except Flaw (Json × List Char) :=
  match _hu : skipBlanks unread with
  | [] => flawAtEnd total .endForValue
  | 'n' :: rest =>
    match _h : word total "ull".toList rest with
    | .error e => .error e
    | .ok rest => close total stack null rest
  | 't' :: rest =>
    match _h : word total "rue".toList rest with
    | .error e => .error e
    | .ok rest => close total stack (bool true) rest
  | 'f' :: rest =>
    match _h : word total "alse".toList rest with
    | .error e => .error e
    | .ok rest => close total stack (bool false) rest
  | '"' :: rest =>
    match _h : stringBody total rest with
    | .error e => .error e
    | .ok (s, rest) => close total stack (string (String.ofList s)) rest
  | '-' :: rest =>
    match _h : number total true rest with
    | .error e => .error e
    | .ok (n, rest) => close total stack n rest
  | '[' :: inner =>
    if depthLimit ≤ stack.length + 1 then flawAt total ('[' :: inner) 1 .tooDeep
    else
      match _h : skipBlanks inner with
      | [] => flawAtEnd total .endInArray
      | ']' :: more => close total stack (array []) more
      | _ => value total (.items [] :: stack) inner
  | '\x7b' :: inner =>
    if depthLimit ≤ stack.length + 1 then flawAt total ('\x7b' :: inner) 1 .tooDeep
    else
      match _h : skipBlanks inner with
      | [] => flawAtEnd total .endInObject
      | '\x7d' :: more => close total stack (object []) more
      | '"' :: keyText =>
        match _hk : memberKey total keyText with
        | .error e => .error e
        | .ok (key, more) => value total (.members [] key :: stack) more
      | other => flawAt total other 1 .keyNotString
  | c :: rest =>
    if c.isDigit then
      match _h : number total false (c :: rest) with
      | .error e => .error e
      | .ok (n, rest) => close total stack n rest
    else flawAt total (c :: rest) 1 .noValue
termination_by unread.length
decreasing_by
  all_goals have hlen := congrArg List.length _hu
  all_goals have := length_skipBlanks_le unread
  all_goals simp only [List.length_cons] at hlen
  all_goals try have := length_word_le _h
  all_goals try have := length_stringBody_lt _h
  all_goals try have := length_number_lt _h
  all_goals try have := length_memberKey_lt _hk
  all_goals try have hinner := length_skipBlanks_le inner
  all_goals try rw [_h, List.length_cons] at hinner
  all_goals try simp only [List.length_cons] at *
  all_goals omega

/-- Reads on behind a finished value, which goes into the innermost open frame. -/
def close (total : Nat) (stack : List Frame) (v : Json) (unread : List Char) :
    Except Flaw (Json × List Char) :=
  match stack with
  | [] => .ok (v, unread)
  | .items done :: stack =>
    match _hu : skipBlanks unread with
    | [] => flawAtEnd total .endInArray
    | ']' :: rest => close total stack (array (done ++ [v])) rest
    | ',' :: inner =>
      match skipBlanks inner with
      | [] => flawAtEnd total .endForValue
      | ']' :: more => flawAt total (']' :: more) 1 .trailingComma
      | _ => value total (.items (done ++ [v]) :: stack) inner
    | other => flawAt total other 1 .noArrayComma
  | .members done key :: stack =>
    match _hu : skipBlanks unread with
    | [] => flawAtEnd total .endInObject
    | '\x7d' :: rest => close total stack (object (done.insert key v)) rest
    | ',' :: inner =>
      match _h : skipBlanks inner with
      | [] => flawAtEnd total .endForValue
      | '"' :: keyText =>
        match _hk : memberKey total keyText with
        | .error e => .error e
        | .ok (next, more) => value total (.members (done.insert key v) next :: stack) more
      | '\x7d' :: more => flawAt total ('\x7d' :: more) 1 .trailingComma
      | other => flawAt total other 1 .keyNotString
    | other => flawAt total other 1 .noObjectComma
termination_by unread.length
decreasing_by
  all_goals have hlen := congrArg List.length _hu
  all_goals have := length_skipBlanks_le unread
  all_goals simp only [List.length_cons] at hlen
  all_goals try have hinner := length_skipBlanks_le inner
  all_goals try rw [_h, List.length_cons] at hinner
  all_goals try have := length_memberKey_lt _hk
  all_goals omega

end

/-- Only blanks may follow the value of a text. -/
def finish {α : Type} (total : Nat) (v : α) (unread : List Char) : Except Flaw α :=
  match skipBlanks unread with
  | [] => .ok v
  | other => flawAt total other 1 .trailing

/-- The value that a text spells. -/
def read (text : List Char) : Except Flaw Json := do
  let total := Text.size text
  let (v, rest) ← value total [] text
  finish total v rest

/-- The flaw of a text that begins with a value other than an object, which is read first; an array is
refused at its bracket. -/
def refuse {α : Type} (total : Nat) (v : Json) (unread : List Char) : Except Flaw α :=
  flawAt total unread 0 (.notObject v.found)

/-- The object that a text spells. -/
def readObject (text : List Char) : Except Flaw Object := do
  let total := Text.size text
  let unread := skipBlanks text
  match unread with
  | '\x7b' :: _ =>
    match ← value total [] unread with
    | (object members, rest) => finish total members rest
    | (other, rest) => refuse total other rest
  | '[' :: _ => refuse total (array []) unread
  | _ =>
    let (v, rest) ← value total [] unread
    refuse total v rest

end DashboardMarkup.Json
