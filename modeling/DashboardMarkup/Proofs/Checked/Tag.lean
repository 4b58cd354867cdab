import DashboardMarkup.Markup.Content
import DashboardMarkup.Proofs.Checked.Basic
import DashboardMarkup.Proofs.Markup.Step

/-!
# Tags by their bytes

The readers for tags, attributes and entities as programs over byte offsets. `EndsAt` says where such a program
stands: in front of a text that ends at its limit.

* `decode_eq`, `attributes_eq`: entities and attributes.
* `isOpenTag_eq`, `isCloseTag_eq`: whether a tag begins a text, read off its bytes.
* `tagEnd_eq`: the first `>` outside quotes, looked for byte by byte, is between characters.
* `readOpenTag_eq`, `skipComment_eq`: where an open tag and a comment end.
-/

namespace DashboardMarkup.Checked

open Text Markup

/-! ## Where a program stands -/

/-- A text stands in a document right before an offset. -/
def EndsAt (doc : List Char) (limit : Nat) (text : List Char) : Prop :=
  ∃ front behind, doc = front ++ (text ++ behind) ∧ size front + size text = limit

namespace EndsAt

variable {doc : List Char} {limit : Nat}

theorem suffix {text rest : List Char} (h : EndsAt doc limit text) (hs : rest <:+ text) :
    EndsAt doc limit rest := by
  obtain ⟨front, behind, rfl, hlimit⟩ := h
  obtain ⟨gap, rfl⟩ := hs
  refine ⟨front ++ gap, behind, by simp, ?_⟩
  rw [size_append] at hlimit ⊢
  omega

theorem size_le {text : List Char} (h : EndsAt doc limit text) : size text ≤ limit := by
  obtain ⟨front, behind, -, hlimit⟩ := h
  omega

/-- A range of what is left can be taken. -/
theorem slice_part {a b c : List Char} (h : EndsAt doc limit (a ++ (b ++ c))) :
    slice doc (limit - size (b ++ c)) (limit - size c) = .ok b := by
  obtain ⟨front, behind, rfl, rfl⟩ := h
  have hrange := slice_append (front ++ a) b (c ++ behind)
  simp only [size_append, List.append_assoc] at hrange ⊢
  rw [← hrange]
  congr 1 <;> omega

theorem slice_rest {text : List Char} (h : EndsAt doc limit text) :
    slice doc (limit - size text) limit = .ok text := by
  have hrange : slice doc (limit - size (text ++ [])) (limit - size []) = .ok text :=
    slice_part (a := []) (by simpa using h)
  simpa using hrange

end EndsAt

/-! ## Entities -/

/-- The characters that the entities of a text stand for. -/
def decode : Nat → List Char → Run (List Char)
  | 0, _ => .error .endless
  | steps + 1, rest => do
    match offsetOf? ['&'] rest with
    | none => return rest
    | some amp =>
      let plain ← sliceTo rest amp
      let rest ← sliceFrom rest amp
      match firstMark? Prod.fst Entity.names rest with
      | some (name, c) => return plain ++ c :: (← decode steps (← sliceFrom rest (size name)))
      | none => return plain ++ '&' :: (← decode steps (← sliceFrom rest 1))

theorem decode_append {text : List Char} (h : '&' ∉ text) (rest : List Char) :
    Entity.decode (text ++ rest) = text ++ Entity.decode rest := by
  induction text with
  | nil => rfl
  | cons c cs ih =>
    have hc : c ≠ '&' := fun heq => h (heq ▸ List.mem_cons_self)
    rw [List.cons_append, Entity.decode_cons_of_ne _ hc, ih fun hmem => h (List.mem_cons_of_mem c hmem)]
    rfl

/-- **Entities are decoded as they are by characters.** -/
theorem decode_eq {steps : Nat} {text : List Char} (hsteps : text.length < steps) :
    decode steps text = .ok (Entity.decode text) := by
  induction steps generalizing text with
  | zero => exact absurd hsteps (Nat.not_lt_zero _)
  | succ steps ih =>
    unfold decode
    rcases offsetOf?_singleton '&' text with ⟨hnone, htext⟩ | ⟨before, after, hsome, rfl, hbefore⟩
    · have hdecode := decode_append htext []
      rw [List.append_nil, Entity.decode_nil, List.append_nil] at hdecode
      rw [hnone, hdecode]
      rfl
    · have hlength : after.length < steps := by
        simp only [List.length_append, List.length_cons] at hsteps
        omega
      rw [hsome, decode_append hbefore, Entity.decode_cons]
      simp only [sliceTo_append, sliceFrom_append, ok_bind]
      rcases firstMark_cases (fun entry : List Char × Char => entry.1) (fun entry rest => (entry.2, rest))
          Entity.names ('&' :: after) with ⟨hnone, hread⟩ | ⟨⟨name, c⟩, rest, hfirst, hstrip, hread⟩
      · have hnot : Entity.read? ('&' :: after) = none := hread
        have hrest : sliceFrom ('&' :: after) 1 = .ok after := sliceFrom_append ['&'] after
        simp only [hnone, hnot, hrest, ok_bind, ih hlength, pure_eq]
      · have hsome : Entity.read? ('&' :: after) = some (c, rest) := hread
        have hshort := Entity.length_read?_lt hsome
        have hrest : sliceFrom ('&' :: after) (size name) = .ok rest := by
          rw [stripPrefix?_eq_some.mp hstrip]
          exact sliceFrom_append name rest
        simp only [hfirst, hrest, hsome, ok_bind, pure_eq]
        rw [ih (by simp only [List.length_cons] at hshort; omega)]
        rfl

/-- The visible text of a fragment. -/
def visible (fragment : List Char) : Run (List Char) := do
  let text := outsideTags false fragment
  return squeeze (← decode (text.length + 1) text)

/-- The attribute at the front of a text, and the text after it. -/
def attribute? (text : List Char) : Run (Option (Attribute × List Char)) := do
  let name := text.takeWhile Attribute.isNameChar
  let rest := text.dropWhile Attribute.isNameChar
  if name.isEmpty then return none
  else
    match Attribute.assigned? rest with
    | some (value, rest) =>
      let value ← decode (value.length + 1) value
      return some (⟨String.ofList name, String.ofList value⟩, rest)
    | none => return some (⟨String.ofList name, ""⟩, rest)

theorem attribute?_eq (text : List Char) : attribute? text = .ok (Attribute.read? text) := by
  unfold attribute? Attribute.read?
  dsimp only
  split
  · rfl
  · cases Attribute.assigned? (text.dropWhile Attribute.isNameChar) with
    | none => rfl
    | some found => simp only [decode_eq (Nat.lt_succ_self _), ok_bind, pure_eq]

/-- The attributes that a text lists. -/
def attributes : Nat → List Char → Run Attributes
  | 0, _ => .error .endless
  | steps + 1, rest => do
    match trimStart rest with
    | [] => return []
    | c :: cs =>
      match ← attribute? (c :: cs) with
      | some (a, rest) => return a :: (← attributes steps rest)
      | none => attributes steps cs

/-- **Attributes are read as they are by characters.** -/
theorem attributes_eq {steps : Nat} {text : List Char} (hsteps : text.length < steps) :
    attributes steps text = .ok (Attributes.read text) := by
  induction steps generalizing text with
  | zero => exact absurd hsteps (Nat.not_lt_zero _)
  | succ steps ih =>
    cases text with
    | nil =>
      rw [Attributes.read_nil]
      rfl
    | cons c cs =>
      have htrim := length_trimStart_le (c :: cs)
      rw [attributes, Attributes.read_cons]
      cases h : trimStart (c :: cs) with
      | nil => rfl
      | cons d ds =>
        rw [h, List.length_cons] at htrim
        simp only [attribute?_eq, ok_bind]
        cases hread : Attribute.read? (d :: ds) with
        | none => exact ih (by omega)
        | some found =>
          obtain ⟨a, rest⟩ := found
          have hshort := Attribute.length_read?_lt hread
          rw [List.length_cons] at hshort
          simp only [ih (show rest.length < steps by omega), ok_bind, pure_eq]

/-- The tag that has a text between its name and its `>`. -/
def openTag (body : List Char) : Run OpenTag := do
  let body := trimEnd body
  match stripSuffix? ['/'] body with
  | some body => return ⟨← attributes (body.length + 1) body, true⟩
  | none => return ⟨← attributes (body.length + 1) body, false⟩

theorem openTag_eq (body : List Char) : openTag body = .ok (OpenTag.ofBody body) := by
  unfold openTag OpenTag.ofBody
  simp only [attributes_eq (Nat.lt_succ_self _), ok_bind, pure_eq]
  cases stripSuffix? ['/'] (trimEnd body) <;> rfl

/-! ## Where a tag begins -/

/-- Whether a byte, or the end of a text, ends a tag name. -/
def endsNameAt : Option UInt8 → Bool
  | none => true
  | some b => [' ', '\t', '\n', '\x0c', '\r', '>', '/'].any fun c => b == ofAscii c

theorem ofAscii_ne_of_high {c d : Char} {b : UInt8} (hc : ¬Ascii c) (hb : b ∈ String.utf8EncodeChar c)
    (hd : Ascii d) : b ≠ ofAscii d := fun heq => by
  have hhigh := high_of_not_ascii hc b hb
  rw [heq, toNat_ofAscii hd] at hhigh
  exact absurd hd (Nat.not_lt.mpr hhigh)

/-- Whether a name stands at an offset, its bytes looked at in any case of letters. -/
def nameAt (here : List Char) (offset : Nat) (name : List Char) : Run Bool := do
  let found ← byteRange here offset (offset + size name)
  return sameBytes found (bytes name) && endsNameAt (bytes here)[offset + size name]?

/-- Whether an open tag of a name begins a text. -/
def isOpenTag (here : List Char) (name : String) : Run Bool := do
  if size name.toList < size here then
    if (← byteAt here 0) == ofAscii '<' then nameAt here 1 name.toList
    else return false
  else return false

/-- Whether a close tag of a name begins a text. -/
def isCloseTag (here : List Char) (name : String) : Run Bool := do
  if size name.toList + 1 < size here then
    if (stripPrefix? "</".toList here).isSome then nameAt here 2 name.toList
    else return false
  else return false

theorem size_of_named? {name : String} {text rest : List Char} (h : named? name text = some rest) :
    size text = size name.toList + size rest := by
  simp only [named?, Option.filter_eq_some_iff] at h
  obtain ⟨found, rfl, hfound⟩ := append_of_word h.1
  rw [size_append, hfound]

/-- The first of some names whose open tag begins a text. -/
def firstTag (here : List Char) : List String → Run (Option String)
  | [] => return none
  | name :: names => do
    if ← isOpenTag here name then return some name else firstTag here names

/-- The offset of the first `>` outside quotes, from an offset up to a limit; `quote` is the quote that is open. -/
def tagEnd (doc : List Char) (limit : Nat) : Nat → Option UInt8 → Nat → Run (Option Nat)
  | 0, _, _ => .error .endless
  | steps + 1, quote, i => do
    if i < limit then
      let b ← byteAt doc i
      match quote with
      | some q => tagEnd doc limit steps (if b == q then none else some q) (i + 1)
      | none =>
        if b == ofAscii '"' || b == ofAscii '\'' then tagEnd doc limit steps (some b) (i + 1)
        else if b == ofAscii '>' then return some i
        else tagEnd doc limit steps none (i + 1)
    else return none

theorem byteAt_append {doc : List Char} {front behind : List UInt8} {b : UInt8}
    (hdoc : bytes doc = front ++ b :: behind) : byteAt doc front.length = .ok b := by
  unfold byteAt
  rw [hdoc, List.getElem?_append_right (Nat.le_refl _), Nat.sub_self]
  rfl

/-- The bytes of a character outside ASCII are passed over. -/
theorem tagEnd_high {doc : List Char} {limit : Nat} {quote : Option Char} (hquote : ∀ q ∈ quote, Ascii q)
    {c : Char} (hc : ¬Ascii c) (front high : List UInt8) {behind : List UInt8}
    (hdoc : bytes doc = front ++ (high ++ behind)) (hhigh : ∀ b ∈ high, b ∈ String.utf8EncodeChar c)
    (hlimit : front.length + high.length ≤ limit) (steps : Nat) :
    tagEnd doc limit (high.length + steps) (quote.map ofAscii) front.length =
      tagEnd doc limit steps (quote.map ofAscii) (front.length + high.length) := by
  induction high generalizing front with
  | nil => simp
  | cons b bs ih =>
    obtain ⟨hb, hbs⟩ := List.forall_mem_cons.mp hhigh
    have hne : ∀ d, Ascii d → b ≠ ofAscii d := fun d hd => ofAscii_ne_of_high hc hb hd
    rw [List.length_cons] at hlimit
    have hrest := ih (front ++ [b]) (by rw [hdoc]; simp) hbs (by simp; omega)
    rw [List.length_append, List.length_singleton] at hrest
    rw [List.length_cons, show bs.length + 1 + steps = bs.length + steps + 1 by omega,
      show front.length + (bs.length + 1) = front.length + 1 + bs.length by omega, ← hrest, tagEnd,
      if_pos (show front.length < limit by omega), byteAt_append hdoc, ok_bind]
    cases quote with
    | none =>
      simp only [Option.map_none, beq_iff_eq, Bool.or_eq_true, hne '"' (by decide), hne '\'' (by decide),
        hne '>' (by decide), or_self, if_false]
    | some q =>
      have hq := hne q (hquote q rfl)
      simp only [Option.map_some, beq_iff_eq, hq, if_false]

theorem beq_ofAscii {c d : Char} (hc : Ascii c) (hd : Ascii d) : (ofAscii c == ofAscii d) = (c == d) := by
  rw [Bool.eq_iff_iff, beq_iff_eq, beq_iff_eq]
  exact ofAscii_inj hc hd

/-- **The end of a tag is found between characters.** -/
theorem tagEnd_text {doc : List Char} {limit : Nat} {quote : Option Char} (hquote : ∀ q ∈ quote, Ascii q)
    (front : List UInt8) (text : List Char) {behind : List UInt8}
    (hdoc : bytes doc = front ++ (bytes text ++ behind)) (hlimit : front.length + size text = limit) {steps : Nat}
    (hsteps : size text < steps) :
    tagEnd doc limit steps (quote.map ofAscii) front.length =
      .ok ((cutTag? quote text).map fun parts => front.length + size parts.1) := by
  induction text generalizing front quote steps with
  | nil =>
    obtain ⟨steps, rfl⟩ : ∃ n, steps = n + 1 := ⟨steps - 1, by omega⟩
    rw [size_nil, Nat.add_zero] at hlimit
    rw [tagEnd, if_neg (by omega)]
    rfl
  | cons c cs ih =>
    rw [size_cons] at hlimit hsteps
    -- The characters behind the first are read after it, with the quote that is open then.
    have hnext : ∀ quote : Option Char, (∀ q ∈ quote, Ascii q) → ∀ steps, size cs < steps →
        tagEnd doc limit steps (quote.map ofAscii) (front.length + c.utf8Size) =
          .ok (((cutTag? quote cs).map fun parts => (c :: parts.1, parts.2)).map
            fun parts => front.length + size parts.1) := fun quote hquote steps hsteps => by
      have hbytes := String.length_utf8EncodeChar c
      have hrest := ih hquote (front ++ String.utf8EncodeChar c) (by rw [hdoc]; simp)
        (by rw [List.length_append, hbytes]; omega) hsteps
      rw [List.length_append, hbytes] at hrest
      rw [hrest, Option.map_map]
      simp only [Function.comp_def, size_cons, Nat.add_assoc]
    by_cases hc : Ascii c
    · have hone : c.utf8Size = 1 := by
        rw [← String.length_utf8EncodeChar, encode_of_ascii hc]
        rfl
      obtain ⟨steps, rfl⟩ : ∃ n, steps = n + 1 := ⟨steps - 1, by omega⟩
      rw [bytes_cons, encode_of_ascii hc] at hdoc
      rw [tagEnd, if_pos (by omega), byteAt_append hdoc, ok_bind]
      rw [hone] at hnext hsteps
      have hleft : size cs < steps := by omega
      cases quote with
      | some q =>
        have hq := hquote q rfl
        have hopen : ∀ p ∈ (if c == q then none else some q), Ascii p := by
          split
          · exact fun p hp => by cases hp
          · exact hquote
        rw [cutTag?, ← hnext _ hopen steps hleft]
        simp only [Option.map_some, beq_ofAscii hc hq]
        split <;> rfl
      | none =>
        simp only [Option.map_none, beq_ofAscii hc (show Ascii '"' by decide),
          beq_ofAscii hc (show Ascii '\'' by decide), beq_ofAscii hc (show Ascii '>' by decide)]
        rw [cutTag?]
        by_cases hmark : (c == '"' || c == '\'') = true
        · have hclose : ¬(c == '>') = true := by
            simp only [Bool.or_eq_true, beq_iff_eq] at hmark
            rcases hmark with rfl | rfl <;> decide
          rw [if_pos hmark, if_pos hmark, if_neg hclose]
          exact hnext (some c) (fun p hp => by cases hp; exact hc) steps hleft
        · rw [if_neg hmark, if_neg hmark]
          split
          · rfl
          · exact hnext none (fun p hp => by cases hp) steps hleft
    · have hne : ∀ d, Ascii d → c ≠ d := fun d hd heq => hc (heq ▸ hd)
      have hlength := String.length_utf8EncodeChar c
      have hinside : front.length + (String.utf8EncodeChar c).length ≤ limit := by omega
      have hhigh := tagEnd_high hquote hc front (String.utf8EncodeChar c)
        (by rw [hdoc, bytes_cons, List.append_assoc]) (fun b hb => hb) hinside (steps - c.utf8Size)
      rw [hlength, Nat.add_sub_cancel' (by omega)] at hhigh
      rw [hhigh, hnext quote hquote _ (by omega)]
      cases quote with
      | none => simp [cutTag?, hne '"' (by decide), hne '\'' (by decide), hne '>' (by decide)]
      | some q => simp [cutTag?, hne q (hquote q rfl)]

/-- The open tag of a name that begins at an offset, and the offset behind it. -/
def readOpenTag (doc : List Char) (start : Nat) (name : String) (limit : Nat) :
    Run (Except Fault (OpenTag × Nat)) := do
  let attrsStart := start + 1 + size name.toList
  match ← tagEnd doc limit (limit + 1) none attrsStart with
  | some i => return .ok (← openTag (← slice doc attrsStart i), i + 1)
  | none => return .error (.unterminated name start)

/-- **An open tag is read as it is by characters.** -/
theorem readOpenTag_eq {doc : List Char} {limit : Nat} {here tail : List Char} {names : List String}
    {name : String} (h : EndsAt doc limit here)
    (hopening : opening? names here = some (name, tail)) :
    readOpenTag doc (limit - size here) name limit =
      .ok (match finish? tail with
        | none => .error (.unterminated name (limit - size here))
        | some (tag, rest) => .ok (tag, limit - size rest)) := by
  have hsize : size here = 1 + size name.toList + size tail := by
    unfold opening? at hopening
    split at hopening
    · next text =>
      obtain ⟨n, -, hn⟩ := List.exists_of_findSome?_eq_some hopening
      simp only [Option.map_eq_some_iff, Prod.mk.injEq] at hn
      obtain ⟨rest, hnamed, rfl, rfl⟩ := hn
      have hone : '<'.utf8Size = 1 := rfl
      rw [size_cons, size_of_named? hnamed, hone, Nat.add_assoc]
    · cases hopening
  have hle := h.size_le
  have htail := h.suffix (suffix_opening? hopening)
  have hstart : limit - size here + 1 + size name.toList = limit - size tail := by omega
  have hend : tagEnd doc limit (limit + 1) none (limit - size tail) =
      .ok ((cutTag? none tail).map fun parts => limit - size tail + size parts.1) := by
    obtain ⟨front, behind, hdoc, hlimit⟩ := htail
    have hfront : (bytes front).length = limit - size tail := by
      rw [length_bytes]
      omega
    have hbytes : bytes doc = bytes front ++ (bytes tail ++ bytes behind) := by
      rw [hdoc, bytes_append, bytes_append]
    have hinside : (bytes front).length + size tail = limit := by omega
    have hnone : ∀ q ∈ (none : Option Char), Ascii q := fun q hq => by cases hq
    have hfound := tagEnd_text hnone (bytes front) tail hbytes hinside (show size tail < limit + 1 by omega)
    rwa [hfront] at hfound
  unfold readOpenTag finish?
  simp only [hstart, hend, ok_bind]
  cases hcut : cutTag? none tail with
  | none => rfl
  | some parts =>
    obtain ⟨body, rest⟩ := parts
    have htext := append_of_cutTag? hcut
    have hone : '>'.utf8Size = 1 := rfl
    have hsizes : size tail = size body + (1 + size rest) := by rw [htext, size_append, size_cons, hone]
    have htaille := htail.size_le
    rw [htext] at htail
    have hbody := EndsAt.slice_part (a := []) htail
    rw [← htext, size_cons, hone, show limit - (1 + size rest) = limit - size tail + size body by omega] at hbody
    simp only [Option.map_some, hbody, openTag_eq, ok_bind, pure_eq,
      show limit - size tail + size body + 1 = limit - size rest by omega]

/-- The offset behind a comment that begins at an offset. -/
def skipComment (doc : List Char) (start limit : Nat) : Run Nat := do
  match offsetOf? "-->".toList (← slice doc (start + 4) limit) with
  | some rel => return start + 4 + rel + 3
  | none => return limit

end DashboardMarkup.Checked
