import DashboardMarkup.Proofs.Markup.Step
import DashboardMarkup.Text.Alphanumeric

/-!
# Names and attributes as they are written

The readers of tags are meant for any text. Here is what they make of a name that stands as a whole word,
and of attributes with their values in double quotes and blanks where they may stand.

* `WrittenAttribute.Delimited`: what tells the parts of an attribute apart.
* `named?_word`: a name is recognised where it stands as a whole word, in any case of letters.
* `read_attributes`: attributes are read as they are written, entities decoded.
-/

namespace DashboardMarkup.Markup

open Text

/-- Whether all characters of a text satisfy a predicate can be computed. This is tried before an instance
that goes through every character there is. -/
instance (priority := 2000) decidableAllChars (p : Char → Prop) [DecidablePred p] (text : List Char) :
    Decidable (∀ c ∈ text, p c) :=
  List.decidableBAll p text

/-! ## Words -/

/-- What ends the name of a tag: a blank, `>` or `/`. -/
def isBoundary (c : Char) : Bool :=
  isTagBlank c || c == '>' || c == '/'

/-- What the name of a tag is written with. -/
def isTagNameChar (c : Char) : Bool :=
  isAlphanumeric c || c == '-' || c == '_'

/-- A name that a search may look for: not empty, and without what would end it. -/
def Searchable (name : String) : Prop :=
  name.toList ≠ [] ∧ ∀ c ∈ name.toList, isBoundary c = false

instance (name : String) : Decidable (Searchable name) :=
  inferInstanceAs (Decidable (_ ∧ _))

theorem endsName_cons (c : Char) (cs : List Char) : endsName (c :: cs) = isBoundary c :=
  rfl

theorem isBoundary_cases {c : Char} (h : isBoundary c = true) :
    c = ' ' ∨ c = '\t' ∨ c = '\n' ∨ c = '\x0c' ∨ c = '\r' ∨ c = '>' ∨ c = '/' := by
  simpa only [isBoundary, isTagBlank, Bool.or_eq_true, beq_iff_eq, or_assoc] using h

theorem isBoundary_of_isTagNameChar {c : Char} (h : isTagNameChar c = true) : isBoundary c = false := by
  rw [← Bool.not_eq_true]
  intro hc
  rcases isBoundary_cases hc with rfl | rfl | rfl | rfl | rfl | rfl | rfl <;> revert h <;> decide

theorem ne_of_isTagNameChar {c d : Char} (h : isTagNameChar c = true) (hd : isTagNameChar d = false) :
    c ≠ d := by
  rintro rfl
  rw [h] at hd
  exact absurd hd (by simp)

theorem toLower_eq_self_or (c : Char) : c.toLower = c ∨ 97 ≤ c.toLower.toNat := by
  unfold Char.toLower
  split
  · next h =>
    right
    have h1 : 65 ≤ c.val.toNat := h.1
    have h2 : c.val.toNat ≤ 90 := h.2
    change 97 ≤ (c.val + 32).toNat
    rw [UInt32.toNat_add]
    change 97 ≤ (c.val.toNat + 32) % 2 ^ 32
    omega
  · exact Or.inl rfl

/-- What ends a name is no letter, so that it has no other case. -/
theorem eq_of_toLower_boundary {c d : Char} (hd : isBoundary d = true) (h : c.toLower = d.toLower) :
    c = d := by
  have hsmall : d.toNat < 97 ∧ d.toLower = d := by
    rcases isBoundary_cases hd with rfl | rfl | rfl | rfl | rfl | rfl | rfl <;> decide
  rw [hsmall.2] at h
  rcases toLower_eq_self_or c with hc | hc
  · rw [← hc, h]
  · rw [h] at hc
    omega

theorem stripWord?_word {name word rest : List Char} (hname : ∀ c ∈ name, isBoundary c = false)
    (hword : ∀ c ∈ word, isBoundary c = false) (hrest : endsName rest = true) :
    (stripWord? name (word ++ rest)).filter endsName =
      if lower word = lower name then some rest else none := by
  induction name generalizing word with
  | nil =>
    cases word with
    | nil => simp [stripWord?, lower, hrest]
    | cons c word =>
      have hc := hword c List.mem_cons_self
      rw [if_neg (by simp [lower]), List.cons_append, stripWord?, Option.filter_some, endsName_cons, hc]
      rfl
  | cons a name ih =>
    have ha := hname a List.mem_cons_self
    have hname' : ∀ c ∈ name, isBoundary c = false := fun c hc => hname c (List.mem_cons_of_mem a hc)
    cases word with
    | nil =>
      rw [if_neg (by simp [lower]), List.nil_append]
      cases rest with
      | nil => rfl
      | cons d rest =>
        rw [endsName_cons] at hrest
        have hne : ¬(a.toLower == d.toLower) = true := by
          rw [beq_iff_eq]
          intro heq
          rw [eq_of_toLower_boundary hrest heq, hrest] at ha
          exact absurd ha (by simp)
        rw [stripWord?, if_neg hne]
        rfl
    | cons c word =>
      have hword' : ∀ d ∈ word, isBoundary d = false := fun d hd => hword d (List.mem_cons_of_mem c hd)
      rw [List.cons_append, stripWord?]
      by_cases hac : a.toLower = c.toLower
      · have hsame : lower (c :: word) = lower (a :: name) ↔ lower word = lower name := by
          simp [lower, hac]
        rw [if_pos (beq_iff_eq.mpr hac), ih hname' hword']
        simp only [hsame]
      · rw [if_neg (by simpa using hac)]
        have hne : ¬lower (c :: word) = lower (a :: name) := by
          intro heq
          exact hac (List.cons.inj heq).1.symm
        rw [if_neg hne]
        rfl

/-- **A name is recognised where it stands as a whole word**, in any case of letters. -/
theorem named?_word {name : String} {word rest : List Char} (hname : Searchable name)
    (hword : ∀ c ∈ word, isBoundary c = false) (hrest : endsName rest = true) :
    named? name (word ++ rest) = if lower word = lower name.toList then some rest else none :=
  stripWord?_word hname.2 hword hrest

/-! ## Attributes -/

/-- An attribute as it is written: blanks, a name, an equals sign, perhaps between blanks, and a text in
double quotes. -/
structure WrittenAttribute where
  gap : List Char
  name : List Char
  beforeSign : List Char
  behindSign : List Char
  raw : List Char
  deriving DecidableEq, Repr

namespace WrittenAttribute

/-- The text of an attribute. -/
def text (a : WrittenAttribute) : List Char :=
  a.gap ++ (a.name ++ (a.beforeSign ++ '=' :: (a.behindSign ++ '"' :: (a.raw ++ ['"']))))

/-- What an attribute says. -/
def meant (a : WrittenAttribute) : Attribute :=
  ⟨String.ofList a.name, String.ofList (Entity.decode a.raw)⟩

/-- The parts of an attribute are what they should be. -/
structure Readable (a : WrittenAttribute) : Prop where
  gap_ne_nil : a.gap ≠ []
  gap_blank : ∀ c ∈ a.gap, isTagBlank c = true
  name_ne_nil : a.name ≠ []
  name_char : ∀ c ∈ a.name, Attribute.isNameChar c = true ∧ c ≠ '<'
  beforeSign_blank : ∀ c ∈ a.beforeSign, isPlainBlank c = true
  behindSign_blank : ∀ c ∈ a.behindSign, isPlainBlank c = true
  raw_quoted : '"' ∉ a.raw

instance (a : WrittenAttribute) : Decidable a.Readable :=
  decidable_of_iff
    (a.gap ≠ [] ∧ (∀ c ∈ a.gap, isTagBlank c = true) ∧ a.name ≠ [] ∧
      (∀ c ∈ a.name, Attribute.isNameChar c = true ∧ c ≠ '<') ∧
      (∀ c ∈ a.beforeSign, isPlainBlank c = true) ∧ (∀ c ∈ a.behindSign, isPlainBlank c = true) ∧
      '"' ∉ a.raw)
    ⟨fun ⟨h1, h2, h3, h4, h5, h6, h7⟩ => ⟨h1, h2, h3, h4, h5, h6, h7⟩,
      fun h => ⟨h.1, h.2, h.3, h.4, h.5, h.6, h.7⟩⟩

/-- **The parts of an attribute are told apart**: none of them has what ends it. Unlike in a document, a name may
have a `<`. -/
structure Delimited (a : WrittenAttribute) : Prop where
  gap_blank : ∀ c ∈ a.gap, isTagBlank c = true
  name_ne_nil : a.name ≠ []
  name_char : ∀ c ∈ a.name, Attribute.isNameChar c = true
  beforeSign_blank : ∀ c ∈ a.beforeSign, isPlainBlank c = true
  behindSign_blank : ∀ c ∈ a.behindSign, isPlainBlank c = true
  raw_quoted : '"' ∉ a.raw

theorem Readable.delimited {a : WrittenAttribute} (h : a.Readable) : a.Delimited where
  gap_blank := h.gap_blank
  name_ne_nil := h.name_ne_nil
  name_char c hc := (h.name_char c hc).1
  beforeSign_blank := h.beforeSign_blank
  behindSign_blank := h.behindSign_blank
  raw_quoted := h.raw_quoted

end WrittenAttribute

theorem isBlank_of_isNameChar {c : Char} (h : Attribute.isNameChar c = true) : isBlank c = false := by
  simp only [Attribute.isNameChar, Bool.and_eq_true, Bool.not_eq_true'] at h
  exact h.1.1.1.1.1

theorem isNameChar_of_isTagBlank {c : Char} (h : isTagBlank c = true) :
    Attribute.isNameChar c = false := by
  simp [Attribute.isNameChar, isBlank_of_isTagBlank h]

theorem takeWhile_append_stop {α : Type} {p : α → Bool} {front rest : List α} {c : α}
    (hfront : ∀ x ∈ front, p x = true) (hc : p c = false) :
    (front ++ c :: rest).takeWhile p = front ∧ (front ++ c :: rest).dropWhile p = c :: rest := by
  have htake : (c :: rest).takeWhile p = [] := List.takeWhile_cons_of_neg (by simp [hc])
  have hdrop : (c :: rest).dropWhile p = c :: rest := List.dropWhile_cons_of_neg (by simp [hc])
  exact ⟨by rw [List.takeWhile_append_of_pos hfront, htake, List.append_nil],
    by rw [List.dropWhile_append_of_pos hfront, hdrop]⟩

/-- A value in double quotes, with blanks around the equals sign. -/
theorem assigned?_written {a : WrittenAttribute} (h : a.Delimited) (rest : List Char) :
    Attribute.assigned? (a.beforeSign ++ '=' :: (a.behindSign ++ '"' :: (a.raw ++ '"' :: rest))) =
      some (a.raw, rest) := by
  have hsign := (@takeWhile_append_stop _ isPlainBlank a.beforeSign
    (a.behindSign ++ '"' :: (a.raw ++ '"' :: rest)) '=' h.beforeSign_blank (by decide)).2
  have hquote := (@takeWhile_append_stop _ isPlainBlank a.behindSign (a.raw ++ '"' :: rest) '"'
    h.behindSign_blank (by decide)).2
  have hraw : cutAt? (· == '"') (a.raw ++ '"' :: rest) = some (a.raw, rest) := by
    refine cutAt?_append (fun c hc => ?_) (by decide)
    rw [beq_eq_false_iff_ne]
    rintro rfl
    exact h.raw_quoted hc
  unfold Attribute.assigned?
  rw [hsign]
  simp only
  rw [hquote]
  unfold Attribute.value? quoted?
  simp [hraw]

theorem read?_written {a : WrittenAttribute} (h : a.Delimited) (rest : List Char) :
    Attribute.read?
        (a.name ++ (a.beforeSign ++ '=' :: (a.behindSign ++ '"' :: (a.raw ++ '"' :: rest)))) =
      some (a.meant, rest) := by
  obtain ⟨d, tail, hsplit, hd⟩ : ∃ d tail,
      a.beforeSign ++ '=' :: (a.behindSign ++ '"' :: (a.raw ++ '"' :: rest)) = d :: tail ∧
        Attribute.isNameChar d = false := by
    cases hb : a.beforeSign with
    | nil => exact ⟨_, _, rfl, by decide⟩
    | cons c cs =>
      have hc := h.beforeSign_blank c (by rw [hb]; exact List.mem_cons_self)
      exact ⟨c, _, rfl, isNameChar_of_isTagBlank (isTagBlank_of_isPlainBlank hc)⟩
  have hassigned := assigned?_written h rest
  rw [hsplit] at hassigned ⊢
  obtain ⟨htake, hdrop⟩ := @takeWhile_append_stop _ Attribute.isNameChar a.name tail d
    h.name_char hd
  unfold Attribute.read?
  simp only
  rw [htake, hdrop, hassigned, if_neg (by simpa using h.name_ne_nil)]
  rfl

theorem trimStart_append {gap rest : List Char} (hgap : ∀ c ∈ gap, isTagBlank c = true) :
    trimStart (gap ++ rest) = trimStart rest :=
  List.dropWhile_append_of_pos fun c hc => isBlank_of_isTagBlank (hgap c hc)

theorem read_eq (text : List Char) :
    Attributes.read text =
      match trimStart text with
      | [] => []
      | d :: ds =>
        match Attribute.read? (d :: ds) with
        | some (a, rest) => a :: Attributes.read rest
        | none => Attributes.read ds := by
  cases text with
  | nil => rw [Attributes.read_nil]; rfl
  | cons c cs => exact Attributes.read_cons c cs

/-- An attribute in front of others is read. -/
theorem read_written {a : WrittenAttribute} (h : a.Delimited) (rest : List Char) :
    Attributes.read (a.text ++ rest) = a.meant :: Attributes.read rest := by
  have hread := read?_written h rest
  have hname : trimStart (a.text ++ rest) =
      a.name ++ (a.beforeSign ++ '=' :: (a.behindSign ++ '"' :: (a.raw ++ '"' :: rest))) := by
    unfold WrittenAttribute.text
    rw [List.append_assoc, trimStart_append h.gap_blank]
    cases hn : a.name with
    | nil => exact absurd hn h.name_ne_nil
    | cons c cs =>
      have hblank := isBlank_of_isNameChar (h.name_char c (by rw [hn]; exact List.mem_cons_self))
      unfold trimStart
      rw [List.cons_append, List.cons_append, List.dropWhile_cons_of_neg (by simp [hblank])]
      simp
  rw [read_eq, hname]
  cases hn : a.name with
  | nil => exact absurd hn h.name_ne_nil
  | cons c cs =>
    rw [hn, List.cons_append] at hread
    rw [List.cons_append]
    simp only [hread]

/-- **Attributes are read as they are written**, entities decoded. -/
theorem read_attributes {attrs : List WrittenAttribute} (h : ∀ a ∈ attrs, a.Delimited) {gap : List Char}
    (hgap : ∀ c ∈ gap, isTagBlank c = true) :
    Attributes.read (attrs.flatMap WrittenAttribute.text ++ gap) =
      attrs.map WrittenAttribute.meant := by
  induction attrs with
  | nil =>
    have htrim := @trimStart_append gap [] hgap
    rw [List.append_nil] at htrim
    rw [List.flatMap_nil, List.nil_append, read_eq, htrim]
    rfl
  | cons a attrs ih =>
    rw [List.flatMap_cons, List.append_assoc, read_written (h a List.mem_cons_self),
      ih fun b hb => h b (List.mem_cons_of_mem a hb)]
    rfl

end DashboardMarkup.Markup
