import DashboardMarkup.Proofs.Text.Offset
import DashboardMarkup.Text.Blank
import DashboardMarkup.Text.Position
import Mathlib.Algebra.Group.Nat.Defs
import Mathlib.Algebra.Ring.Int.Defs

/-!
# Programs that may crash

The readers of this library take a text apart as a list of characters, so that they cannot go wrong by where
they look. A program that goes through the bytes of a text by their offsets can: it crashes where a range of a
text is not in order, in bounds or between characters, where there is no byte, and where a number does not fit
its type. `Checked.Run` is the result of such a program, and its loops count their steps, so that one that does
not end is a crash as well.

* `slice`, `sliceFrom`, `sliceTo`: ranges of a text. `slice_append`: a range that fits.
* `bytes`: the bytes of a text. `ofAscii`: an ASCII character is one byte; `high_of_not_ascii`: no byte of any
  other character is one.
* `sameBytes_word`: words compared byte by byte, in any case of letters.
-/

namespace DashboardMarkup.Checked

open Text

/-- What stops a program that should go on. -/
inductive Crash
  /-- A range whose ends are not in order, inside the text and between characters. -/
  | range
  /-- A byte that is not there. -/
  | index
  /-- A number that does not fit its type. -/
  | arithmetic
  /-- A loop that has not ended after all its steps. -/
  | endless
  deriving DecidableEq, Repr

/-- What a program that may crash gives. -/
abbrev Run := Except Crash

@[simp] theorem ok_bind {α β : Type} (a : α) (f : α → Run β) : (Except.ok a : Run α) >>= f = f a := rfl

@[simp] theorem pure_eq {α : Type} (a : α) : (pure a : Run α) = .ok a := rfl

/-! ## Ranges -/

/-- The text from one byte offset up to another. -/
def slice (text : List Char) (start stop : Nat) : Run (List Char) :=
  match Span.cut? ⟨start, stop⟩ text with
  | some covered => .ok covered
  | none => .error .range

/-- The text from a byte offset on. -/
def sliceFrom (text : List Char) (start : Nat) : Run (List Char) :=
  slice text start (size text)

/-- The text up to a byte offset. -/
def sliceTo (text : List Char) (stop : Nat) : Run (List Char) :=
  slice text 0 stop

theorem slice_append (a b c : List Char) : slice (a ++ (b ++ c)) (size a) (size a + size b) = .ok b := by
  unfold slice
  rw [Span.cut?_append]

theorem sliceFrom_append (a b : List Char) : sliceFrom (a ++ b) (size a) = .ok b := by
  have h := slice_append a b []
  rw [List.append_nil] at h
  unfold sliceFrom
  rw [size_append]
  exact h

theorem sliceTo_append (a b : List Char) : sliceTo (a ++ b) (size a) = .ok a := by
  have h := slice_append [] a b
  rw [size_nil, Nat.zero_add, List.nil_append] at h
  exact h

/-- **A range can be taken exactly if it fits.** -/
theorem slice_eq_ok {text : List Char} {start stop : Nat} :
    (∃ covered, slice text start stop = .ok covered) ↔ Span.Fits ⟨start, stop⟩ text := by
  unfold slice
  constructor
  · rintro ⟨covered, h⟩
    split at h
    · next hcut =>
      obtain ⟨before, behind, htext, hstart, hstop⟩ := Span.cut?_eq_some.mp hcut
      exact ⟨before, _, behind, htext, hstart, hstop⟩
    · cases h
  · rintro ⟨before, covered, behind, htext, hstart, hstop⟩
    have hcut : Span.cut? ⟨start, stop⟩ text = some covered :=
      Span.cut?_eq_some.mpr ⟨before, behind, htext, hstart, hstop⟩
    exact ⟨covered, by rw [hcut]⟩

/-- The offset of the first occurrence of a mark. -/
def offsetOf? (mark text : List Char) : Option Nat :=
  (cut? mark text).map fun parts => size parts.1

/-- A mark of one character is in none of the text, or the text before the first one has none of it. -/
theorem offsetOf?_singleton (c : Char) (text : List Char) :
    (offsetOf? [c] text = none ∧ c ∉ text) ∨
      ∃ before after, offsetOf? [c] text = some (size before) ∧ text = before ++ c :: after ∧ c ∉ before := by
  unfold offsetOf?
  induction text with
  | nil => exact Or.inl ⟨rfl, List.not_mem_nil⟩
  | cons d ds ih =>
    by_cases hd : c = d
    · subst hd
      exact Or.inr ⟨[], ds, by simp [cut?, stripPrefix?], rfl, List.not_mem_nil⟩
    · have hcut : cut? [c] (d :: ds) = (cut? [c] ds).map fun parts => (d :: parts.1, parts.2) := by
        simp [cut?, stripPrefix?, hd]
      have hmem : ∀ {text : List Char}, c ∉ text → c ∉ d :: text := fun h => by simpa using ⟨hd, h⟩
      rw [hcut]
      rcases ih with ⟨hnone, hds⟩ | ⟨before, after, hsome, rfl, hbefore⟩
      · rw [Option.map_eq_none_iff] at hnone
        exact Or.inl ⟨by rw [hnone]; rfl, hmem hds⟩
      · obtain ⟨parts, hparts, hsize⟩ := Option.map_eq_some_iff.mp hsome
        refine Or.inr ⟨d :: before, after, ?_, rfl, hmem hbefore⟩
        rw [hparts]
        simp [hsize]

/-- The first of some entries whose mark begins a text. -/
def firstMark? {β : Type} (mark : β → List Char) (entries : List β) (text : List Char) : Option β :=
  entries.find? fun entry => (stripPrefix? (mark entry) text).isSome

/-- Looking for the first mark that a text begins with, and stripping the first mark that can be stripped. -/
theorem firstMark_cases {β γ : Type} (mark : β → List Char) (value : β → List Char → γ) (entries : List β)
    (text : List Char) :
    (firstMark? mark entries text = none ∧
      entries.findSome? (fun entry => (stripPrefix? (mark entry) text).map (value entry)) = none) ∨
    ∃ entry rest, firstMark? mark entries text = some entry ∧ stripPrefix? (mark entry) text = some rest ∧
      entries.findSome? (fun entry => (stripPrefix? (mark entry) text).map (value entry)) =
        some (value entry rest) := by
  unfold firstMark?
  induction entries with
  | nil => exact Or.inl ⟨rfl, rfl⟩
  | cons entry entries ih =>
    rw [List.find?_cons, List.findSome?_cons]
    cases hstrip : stripPrefix? (mark entry) text with
    | none => simpa using ih
    | some rest => exact Or.inr ⟨entry, rest, rfl, hstrip, rfl⟩

/-! ## Numbers -/

/-- A difference of natural numbers. -/
def sub (a b : Nat) : Run Nat :=
  if b ≤ a then .ok (a - b) else .error .arithmetic

theorem sub_eq_ok {a b : Nat} (h : b ≤ a) : sub a b = .ok (a - b) :=
  if_pos h

/-- A number that fits 32 bits with a sign. -/
def int32 (z : Int) : Run Int :=
  if -2 ^ 31 ≤ z ∧ z < 2 ^ 31 then .ok z else .error .arithmetic

theorem int32_eq_ok {z : Int} (h : -2 ^ 31 ≤ z ∧ z < 2 ^ 31) : int32 z = .ok z :=
  if_pos h

/-- A number that fits 32 bits without a sign. -/
def uint32 (n : Nat) : Run Nat :=
  if n < 2 ^ 32 then .ok n else .error .arithmetic

/-- The position of a byte offset, from the characters that begin at another offset on. -/
def positionFrom (offset : Nat) : Nat → Position → List Char → Run Position
  | _, p, [] => return p
  | i, p, c :: cs => do
    if offset ≤ i then return p
    else if c == '\n' then positionFrom offset (i + c.utf8Size) ⟨← uint32 (p.line + 1), 1⟩ cs
    else positionFrom offset (i + c.utf8Size) ⟨p.line, ← uint32 (p.column + 1)⟩ cs

/-- The position of a byte offset in a document. -/
def position (doc : List Char) (offset : Nat) : Run Position :=
  positionFrom offset 0 Position.origin doc

/-- The bytes of a text. -/
def bytes (text : List Char) : List UInt8 :=
  text.flatMap String.utf8EncodeChar

@[simp] theorem bytes_nil : bytes [] = [] := rfl

@[simp] theorem bytes_cons (c : Char) (cs : List Char) : bytes (c :: cs) = String.utf8EncodeChar c ++ bytes cs := rfl

@[simp] theorem bytes_append (a b : List Char) : bytes (a ++ b) = bytes a ++ bytes b :=
  List.flatMap_append

@[simp] theorem length_bytes (text : List Char) : (bytes text).length = size text := by
  induction text with
  | nil => rfl
  | cons c cs ih => simp [ih]

/-- The byte at an offset. -/
def byteAt (text : List Char) (offset : Nat) : Run UInt8 :=
  match (bytes text)[offset]? with
  | some b => .ok b
  | none => .error .index

/-- The bytes from one offset up to another. -/
def byteRange (text : List Char) (start stop : Nat) : Run (List UInt8) :=
  if start ≤ stop ∧ stop ≤ (bytes text).length then .ok (((bytes text).take stop).drop start) else .error .range

/-- A character of ASCII. -/
def Ascii (c : Char) : Prop :=
  c.toNat < 128

instance (c : Char) : Decidable (Ascii c) :=
  inferInstanceAs (Decidable (_ < _))

/-- The byte that an ASCII character is. -/
def ofAscii (c : Char) : UInt8 :=
  UInt8.ofNat c.toNat

theorem toNat_ofAscii {c : Char} (h : Ascii c) : (ofAscii c).toNat = c.toNat :=
  UInt8.toNat_ofNat_of_lt' (Nat.lt_trans h (by decide))

theorem ofAscii_inj {c d : Char} (hc : Ascii c) (hd : Ascii d) : ofAscii c = ofAscii d ↔ c = d := by
  rw [← UInt8.toNat_inj, toNat_ofAscii hc, toNat_ofAscii hd]
  exact ⟨fun h => Char.ext (UInt32.toNat_inj.mp h), fun h => h ▸ rfl⟩

theorem encode_of_ascii {c : Char} (h : Ascii c) : String.utf8EncodeChar c = [ofAscii c] := by
  have hle : c.val.toNat ≤ 0x7f := Nat.le_of_lt_succ h
  unfold String.utf8EncodeChar
  exact if_pos hle

/-- **No byte of another character is one of ASCII.** -/
theorem high_of_not_ascii {c : Char} (h : ¬Ascii c) : ∀ b ∈ String.utf8EncodeChar c, 128 ≤ b.toNat := by
  have hgt : ¬c.val.toNat ≤ 0x7f := fun hle => h (Nat.lt_succ_of_le hle)
  fun_cases String.utf8EncodeChar c with
  | case1 v hle => exact absurd hle hgt
  | case2 => simp; omega
  | case3 => simp; omega
  | case4 => simp; omega

/-- **The encoding is prefix-free**: the bytes of a text say which character comes first. -/
theorem encode_append_inj {c d : Char} {x y : List UInt8}
    (h : String.utf8EncodeChar c ++ x = String.utf8EncodeChar d ++ y) : c = d := by
  have hc := @ByteArray.utf8DecodeChar?_utf8EncodeChar_append x.toByteArray c
  have hd := @ByteArray.utf8DecodeChar?_utf8EncodeChar_append y.toByteArray d
  rw [← List.toByteArray_append, h, List.toByteArray_append, hd] at hc
  exact (Option.some.inj hc).symm

/-- The bytes of a text begin with those of another exactly if the text begins with the other. -/
theorem bytes_prefix {a b : List Char} : bytes a <+: bytes b ↔ a <+: b := by
  constructor
  · intro h
    induction a generalizing b with
    | nil => exact List.nil_prefix
    | cons c cs ih =>
      obtain ⟨rest, h⟩ := h
      rw [bytes_cons, List.append_assoc] at h
      cases b with
      | nil => exact absurd (List.append_eq_nil_iff.mp h).1 String.utf8EncodeChar_ne_nil
      | cons d ds =>
        rw [bytes_cons] at h
        obtain rfl := encode_append_inj h
        exact (List.prefix_cons_inj c).mpr (ih ⟨rest, List.append_cancel_left h⟩)
  · rintro ⟨rest, rfl⟩
    exact ⟨bytes rest, (bytes_append a rest).symm⟩

/-! ## Bytes in any case of letters -/

/-- A byte with an ASCII capital replaced by its small letter. -/
def lowerByte (b : UInt8) : UInt8 :=
  if 65 ≤ b.toNat ∧ b.toNat ≤ 90 then UInt8.ofNat (b.toNat + 32) else b

/-- Whether two runs of bytes are the same, the case of ASCII letters aside. -/
def sameBytes (a b : List UInt8) : Bool :=
  a.map lowerByte == b.map lowerByte

theorem lowerByte_ofAscii {c : Char} (h : Ascii c) :
    lowerByte (ofAscii c) = ofAscii c.toLower ∧ Ascii c.toLower := by
  have hall : ∀ n : Fin 128, lowerByte (ofAscii (Char.ofNat n)) = ofAscii (Char.ofNat n).toLower ∧
      Ascii (Char.ofNat n).toLower := by decide
  have hc := hall ⟨c.toNat, h⟩
  rwa [Char.ofNat_toNat] at hc

/-- Only ASCII characters have a small letter of their own. -/
theorem toLower_of_not_ascii {c : Char} (h : ¬Ascii c) : c.toLower = c := by
  unfold Char.toLower
  split
  · next hrange =>
    refine absurd ?_ h
    have hle := UInt32.le_iff_toNat_le.mp hrange.2
    exact Nat.lt_of_le_of_lt hle (by decide)
  · rfl

theorem map_lowerByte_encode (c : Char) :
    (String.utf8EncodeChar c).map lowerByte = String.utf8EncodeChar c.toLower := by
  by_cases hc : Ascii c
  · obtain ⟨hlower, hascii⟩ := lowerByte_ofAscii hc
    rw [encode_of_ascii hc, encode_of_ascii hascii, List.map_singleton, hlower]
  · have hkeep : ∀ b ∈ String.utf8EncodeChar c, lowerByte b = b := fun b hb => by
      have hhigh := high_of_not_ascii hc b hb
      exact if_neg (by omega)
    rw [toLower_of_not_ascii hc]
    exact (List.map_congr_left hkeep).trans (List.map_id _)

/-- **Small letters are the same for bytes and for characters.** -/
theorem map_lowerByte_bytes (text : List Char) : (bytes text).map lowerByte = bytes (lower text) := by
  induction text with
  | nil => rfl
  | cons c cs ih =>
    rw [bytes_cons, List.map_append, map_lowerByte_encode, ih]
    rfl

@[simp] theorem size_lower (text : List Char) : size (lower text) = size text := by
  rw [← length_bytes, ← map_lowerByte_bytes, List.length_map, length_bytes]

/-- A word stands at the front of a text if their small letters do. -/
theorem isSome_stripWord? (word text : List Char) :
    (stripWord? word text).isSome = true ↔ lower word <+: lower text := by
  fun_induction stripWord? word text with
  | case1 text => exact iff_of_true rfl List.nil_prefix
  | case2 w ws => simp [lower]
  | case3 w ws c cs hwc ih =>
    rw [ih]
    simp [lower, List.prefix_cons_iff, beq_iff_eq.mp hwc]
  | case4 w ws c cs hwc =>
    have hne : w.toLower ≠ c.toLower := fun heq => hwc (beq_iff_eq.mpr heq)
    simp [lower, List.cons_prefix_cons, hne]

/-- **Words are compared by their bytes as they are by characters.** -/
theorem sameBytes_word (word text : List Char) :
    sameBytes ((bytes text).take (size word)) (bytes word) = (stripWord? word text).isSome := by
  rw [Bool.eq_iff_iff, isSome_stripWord?, ← bytes_prefix, List.prefix_iff_eq_take]
  unfold sameBytes
  rw [beq_iff_eq, List.map_take, map_lowerByte_bytes, map_lowerByte_bytes, length_bytes, size_lower]
  exact eq_comm

/-- A word that is found has as many bytes as the word that is looked for. -/
theorem append_of_word {word text rest : List Char} (h : stripWord? word text = some rest) :
    ∃ found, text = found ++ rest ∧ size found = size word := by
  obtain ⟨found, htext, hfound⟩ := append_of_stripWord? h
  exact ⟨found, htext, by rw [← size_lower, hfound, size_lower]⟩

end DashboardMarkup.Checked
