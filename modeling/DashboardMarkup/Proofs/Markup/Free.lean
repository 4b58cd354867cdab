import DashboardMarkup.Proofs.Markup.Forest
import DashboardMarkup.Proofs.Markup.Standing

/-!
# Texts that are free of some tags

A text may hold anything but comments and the tags of some names. A search for these names goes through it without
a stop, whatever else stands in it, well-formed or not. What follows the text must not complete a tag that begins
in it; it does not if it begins with a `<`, or if no tag is left without its end in the text.

* `FreeOf`: no comment begins in a text, and no tag of some names.
* `FreeOf.append`: two such texts, one behind the other.
* `FreeOf.scan`, `FreeOf.findClose`: such a text is passed over.
* `findClose_behind`: a close tag that is found in a text is found whatever follows the text.
* `scan_behind`: and so are closed elements.
-/

namespace DashboardMarkup.Markup

open Text

/-- Names in which a tag neither begins nor ends. -/
def Unbroken (name : String) : Prop :=
  Searchable name ∧ '<' ∉ name.toList

instance (name : String) : Decidable (Unbroken name) :=
  inferInstanceAs (Decidable (_ ∧ _))

/-- **Every `<` of a text has a `>` behind it.** -/
def Finished : List Char → Prop
  | [] => True
  | c :: cs => (c = '<' → '>' ∈ cs) ∧ Finished cs

instance decidableFinished : (text : List Char) → Decidable (Finished text)
  | [] => isTrue trivial
  | _ :: cs =>
    have := decidableFinished cs
    inferInstanceAs (Decidable (_ ∧ _))

theorem Finished.of_suffix {rest text : List Char} (h : Finished text) (hs : rest <:+ text) : Finished rest := by
  induction text with
  | nil =>
    obtain rfl := List.suffix_nil.mp hs
    trivial
  | cons c text ih =>
    rcases List.suffix_cons_iff.mp hs with rfl | hs
    · exact h
    · exact ih h.2 hs

/-- A text that ends with a `>`. -/
theorem finished_of_getLast? {text : List Char} (h : text.getLast? = some '>') : Finished text := by
  induction text with
  | nil => trivial
  | cons c text ih =>
    cases text with
    | nil =>
      obtain rfl := Option.some.inj h
      exact ⟨fun heq => absurd heq (by decide), trivial⟩
    | cons d text =>
      rw [List.getLast?_cons_cons] at h
      exact ⟨fun _ => List.mem_of_getLast? h, ih h⟩

/-- **Between two texts no tag is completed**: nothing follows the first one, or a `<` does, or each of its tags has
its end. -/
def Seam (text after : List Char) : Prop :=
  after = [] ∨ after.head? = some '<' ∨ Finished text

theorem Seam.of_cons {c : Char} {text after : List Char} (h : Seam (c :: text) after) : Seam text after :=
  h.imp_right (Or.imp_right And.right)

/-! ## Names across a seam -/

theorem eq_of_toLower_lt {c : Char} (h : c.toLower = '<') : c = '<' := by
  rcases toLower_eq_self_or c with hc | hc
  · rw [← hc, h]
  · rw [h] at hc
    exact absurd hc (by decide)

/-- The `>` of a text does not stand in a word at its front. -/
theorem mem_tail_of_word {w c : Char} {cs : List Char} (hw : isBoundary w = false) (heq : w.toLower = c.toLower)
    (hmem : '>' ∈ c :: cs) : '>' ∈ cs := by
  rcases List.mem_cons.mp hmem with rfl | htail
  · rw [eq_of_toLower_boundary (by decide) heq] at hw
    exact absurd hw (by decide)
  · exact htail

/-- A word that does not stand at the front of a text is not completed by what follows. -/
theorem stripWord?_seam {word text after : List Char} (hword : ∀ c ∈ word, isBoundary c = false) (hlt : '<' ∉ word)
    (hseam : after = [] ∨ after.head? = some '<' ∨ '>' ∈ text) (h : (stripWord? word text).filter endsName = none) :
    (stripWord? word (text ++ after)).filter endsName = none := by
  induction word generalizing text with
  | nil =>
    cases text with
    | nil => exact absurd h (by simp [stripWord?, endsName])
    | cons c cs =>
      have hsame : endsName (c :: cs ++ after) = endsName (c :: cs) := rfl
      simp only [stripWord?, Option.filter_some, hsame] at h ⊢
      by_cases hc : endsName (c :: cs) = true
      · rw [if_pos hc] at h
        cases h
      · rw [if_neg hc]
  | cons w word ih =>
    have hword' : ∀ c ∈ word, isBoundary c = false := fun c hc => hword c (List.mem_cons_of_mem w hc)
    have hlt' : '<' ∉ word := fun hmem => hlt (List.mem_cons_of_mem w hmem)
    cases text with
    | nil =>
      rcases hseam with rfl | hafter | hmem
      · exact h
      · cases after with
        | nil => cases hafter
        | cons d after =>
          obtain rfl := Option.some.inj hafter
          have hne : ¬(w.toLower == ('<').toLower) = true := fun heq =>
            hlt (eq_of_toLower_lt (beq_iff_eq.mp heq) ▸ List.mem_cons_self)
          rw [List.nil_append, stripWord?, if_neg hne]
          rfl
      · cases hmem
    | cons c cs =>
      rw [stripWord?] at h
      rw [List.cons_append, stripWord?]
      split
      · next heq =>
        rw [if_pos heq] at h
        refine ih hword' hlt' (hseam.imp_right (Or.imp_right fun hmem => ?_)) h
        exact mem_tail_of_word (hword w List.mem_cons_self) (beq_iff_eq.mp heq) hmem
      · rfl

/-- A word at the front of a text with a `>` stands there whatever follows. -/
theorem stripWord?_behind {word text rest : List Char} (hword : ∀ c ∈ word, isBoundary c = false)
    (hmem : '>' ∈ text) (h : (stripWord? word text).filter endsName = some rest) (after : List Char) :
    (stripWord? word (text ++ after)).filter endsName = some (rest ++ after) := by
  induction word generalizing text with
  | nil =>
    cases text with
    | nil => cases hmem
    | cons c cs =>
      simp only [stripWord?, Option.filter_eq_some_iff, Option.some.injEq] at h ⊢
      obtain ⟨rfl, hc⟩ := h
      exact ⟨rfl, hc⟩
  | cons w word ih =>
    cases text with
    | nil => cases hmem
    | cons c cs =>
      rw [stripWord?] at h
      rw [List.cons_append, stripWord?]
      split
      · next heq =>
        rw [if_pos heq] at h
        have htail := mem_tail_of_word (hword w List.mem_cons_self) (beq_iff_eq.mp heq) hmem
        exact ih (fun c hc => hword c (List.mem_cons_of_mem w hc)) htail h
      · next hne =>
        rw [if_neg hne] at h
        cases h

/-! ## Tags across a seam -/

section

variable {name : String} {text after : List Char}

theorem comment?_seam (hseam : Seam text after) (hne : text ≠ []) (h : comment? text = none) :
    comment? (text ++ after) = none := by
  unfold comment? at h ⊢
  rw [Option.map_eq_none_iff] at h ⊢
  rw [Option.eq_none_iff_forall_ne_some] at h ⊢
  intro body hbody
  have hmark : "<!--".toList = ['<', '!', '-', '-'] := rfl
  simp only [hmark, ne_eq, stripPrefix?_eq_some] at h hbody
  -- a comment that begins before the seam begins with what stands before it
  match text with
  | [] => exact hne rfl
  | [a] =>
    simp only [List.cons_append, List.nil_append, List.cons.injEq] at hbody
    obtain ⟨rfl, rfl⟩ := hbody
    exact absurd hseam (by simp [Seam, Finished])
  | [a, b] =>
    simp only [List.cons_append, List.nil_append, List.cons.injEq] at hbody
    obtain ⟨rfl, rfl, rfl⟩ := hbody
    exact absurd hseam (by simp [Seam, Finished])
  | [a, b, c] =>
    simp only [List.cons_append, List.nil_append, List.cons.injEq] at hbody
    obtain ⟨rfl, rfl, rfl, rfl⟩ := hbody
    exact absurd hseam (by simp [Seam, Finished])
  | a :: b :: c :: d :: rest =>
    simp only [List.cons_append, List.nil_append, List.cons.injEq] at hbody
    obtain ⟨rfl, rfl, rfl, rfl, -⟩ := hbody
    exact h rest rfl

theorem opening?_seam {names : List String} (hnames : ∀ name ∈ names, Unbroken name) (hseam : Seam text after)
    (hne : text ≠ []) (h : opening? names text = none) : opening? names (text ++ after) = none := by
  cases text with
  | nil => exact absurd rfl hne
  | cons c cs =>
    by_cases hc : c = '<'
    · subst hc
      have hinside := hseam.imp_right (Or.imp_right fun hfinished => hfinished.1 rfl)
      simp only [opening?, List.cons_append, List.findSome?_eq_none_iff, Option.map_eq_none_iff] at h ⊢
      exact fun name hname => stripWord?_seam (hnames name hname).1.2 (hnames name hname).2 hinside (h name hname)
    · exact opening?_of_ne_lt hc names (cs ++ after)

theorem closing?_seam (hname : Unbroken name) (hseam : Seam text after) (hne : text ≠ [])
    (h : closing? name text = none) : closing? name (text ++ after) = none := by
  match text with
  | [] => exact absurd rfl hne
  | [c] =>
    by_cases hc : c = '<'
    · subst hc
      rcases hseam with rfl | hafter | hfinished
      · exact h
      · cases after with
        | nil => cases hafter
        | cons d after =>
          obtain rfl := Option.some.inj hafter
          unfold closing?
          split
          · next heq =>
            exact absurd (List.cons.inj (List.cons.inj heq).2).1 (by decide)
          · rfl
      · cases hfinished.1 rfl
    · exact closing?_of_ne_lt hc name _
  | c :: d :: cs =>
    by_cases hmark : c = '<' ∧ d = '/'
    · obtain ⟨rfl, rfl⟩ := hmark
      have hinside : after = [] ∨ after.head? = some '<' ∨ '>' ∈ cs :=
        hseam.imp_right (Or.imp_right fun hfinished =>
          (List.mem_cons.mp (hfinished.1 rfl)).resolve_left (by decide))
      exact stripWord?_seam hname.1.2 hname.2 hinside h
    · unfold closing?
      split
      · next heq =>
        exact absurd ⟨(List.cons.inj heq).1, (List.cons.inj (List.cons.inj heq).2).1⟩ hmark
      · rfl

end

/-! ## Free texts -/

/-- Neither a comment nor a tag of some names, be it an open or a close one, begins at the front of a text. -/
def NoTag (names : List String) (text : List Char) : Prop :=
  comment? text = none ∧ ∀ name ∈ names, opening? [name] text = none ∧ closing? name text = none

instance (names : List String) (text : List Char) : Decidable (NoTag names text) :=
  inferInstanceAs (Decidable (_ ∧ ∀ name ∈ names, _ ∧ _))

/-- **No comment begins in a text, and no tag of some names.** -/
def FreeOf (names : List String) : List Char → Prop
  | [] => True
  | c :: cs => NoTag names (c :: cs) ∧ FreeOf names cs

instance decidableFreeOf (names : List String) : (text : List Char) → Decidable (FreeOf names text)
  | [] => isTrue trivial
  | _ :: cs =>
    have := decidableFreeOf names cs
    inferInstanceAs (Decidable (_ ∧ _))

namespace NoTag

variable {names : List String} {text after : List Char}

theorem of_ne_lt {c : Char} (hc : c ≠ '<') (cs : List Char) : NoTag names (c :: cs) :=
  ⟨comment?_of_ne_lt hc cs, fun name _ => ⟨opening?_of_ne_lt hc [name] cs, closing?_of_ne_lt hc name cs⟩⟩

theorem append (hnames : ∀ name ∈ names, Unbroken name) (hseam : Seam text after) (hne : text ≠ [])
    (h : NoTag names text) : NoTag names (text ++ after) :=
  ⟨comment?_seam hseam hne h.1, fun name hname => ⟨opening?_seam (by simpa using hnames name hname) hseam hne (h.2 name hname).1,
    closing?_seam (hnames name hname) hseam hne (h.2 name hname).2⟩⟩

theorem opening? (h : NoTag names text) : Markup.opening? names text = none := by
  cases text with
  | nil => rfl
  | cons c text =>
    by_cases hc : c = '<'
    · subst hc
      refine List.findSome?_eq_none_iff.mpr fun name hname => ?_
      have hopening := (h.2 name hname).1
      simp only [Markup.opening?, List.findSome?_cons, List.findSome?_nil] at hopening
      split at hopening
      · cases hopening
      · assumption
    · exact opening?_of_ne_lt hc names text

end NoTag

namespace FreeOf

variable {names : List String} {text after : List Char}

theorem mono {more : List String} (h : FreeOf more text) (hsub : ∀ name ∈ names, name ∈ more) :
    FreeOf names text := by
  induction text with
  | nil => trivial
  | cons c text ih => exact ⟨⟨h.1.1, fun name hname => h.1.2 name (hsub name hname)⟩, ih h.2⟩

theorem of_suffix {rest : List Char} (h : FreeOf names text) (hs : rest <:+ text) : FreeOf names rest := by
  induction text with
  | nil =>
    obtain rfl := List.suffix_nil.mp hs
    trivial
  | cons c text ih =>
    rcases List.suffix_cons_iff.mp hs with rfl | hs
    · exact h
    · exact ih h.2 hs

/-- No comment begins in a text if none does with what follows it. -/
theorem nil_of_append (h : FreeOf [] (text ++ after)) : FreeOf [] text := by
  induction text with
  | nil => trivial
  | cons c text ih =>
    refine ⟨⟨?_, fun name hname => by cases hname⟩, ih h.2⟩
    have hcomment := h.1.1
    unfold comment? at hcomment ⊢
    rw [Option.map_eq_none_iff] at hcomment ⊢
    refine Option.eq_none_iff_forall_ne_some.mpr fun body hbody => ?_
    refine Option.eq_none_iff_forall_ne_some.mp hcomment (body ++ after) (stripPrefix?_eq_some.mpr ?_)
    exact (congrArg (· ++ after) (stripPrefix?_eq_some.mp hbody)).trans (List.append_assoc ..)

/-- A text without a `<`. -/
theorem of_not_mem (h : '<' ∉ text) : FreeOf names text := by
  induction text with
  | nil => trivial
  | cons c text ih =>
    have hc : c ≠ '<' := fun heq => h (heq ▸ List.mem_cons_self)
    exact ⟨.of_ne_lt hc text, ih fun hmem => h (List.mem_cons_of_mem c hmem)⟩

/-- **Two free texts, one behind the other.** -/
theorem append (hnames : ∀ name ∈ names, Unbroken name) (h : FreeOf names text) (hafter : FreeOf names after)
    (hseam : Seam text after) : FreeOf names (text ++ after) := by
  induction text with
  | nil => exact hafter
  | cons c text ih =>
    exact ⟨h.1.append hnames hseam (List.cons_ne_nil c text), ih h.2 hseam.of_cons⟩

/-- An open tag of another name. -/
theorem tag {t : WrittenTag} (ht : t.Readable) (hplain : t.Plain)
    (hnames : ∀ name ∈ names, Searchable name ∧ lower t.name ≠ lower name.toList) :
    FreeOf names (t.text ++ ['>']) := by
  have hrest : '<' ∉ (t.name ++ t.body) ++ ['>'] := by
    simpa using not_mem_body ht hplain
  refine ⟨⟨comment?_tag ht ['>'], fun name hname => ⟨?_, closing?_tag ht ['>']⟩⟩, of_not_mem hrest⟩
  obtain ⟨hsearch, hne⟩ := hnames name hname
  have hopening := @opening?_tag [name] t ht (by simpa using hsearch) ['>'] rfl
  have hnone : t.nameIn? [name] = none := by
    simpa [WrittenTag.nameIn?] using hne
  rw [hnone] at hopening
  exact hopening

/-- A close tag of another name. -/
theorem close {t : WrittenClose} (ht : t.Readable)
    (hnames : ∀ name ∈ names, Searchable name ∧ lower t.name ≠ lower name.toList) : FreeOf names t.text := by
  have hcomment := comment?_close t []
  rw [List.append_nil] at hcomment
  refine ⟨⟨hcomment, fun name hname => ?_⟩, of_not_mem (not_mem_closing ht)⟩
  have hopening := @opening?_close [name] (by simpa using (hnames name hname).1) t []
  have hclosing := closing?_close ht (hnames name hname).1 []
  rw [List.append_nil] at hopening hclosing
  rw [if_neg (hnames name hname).2] at hclosing
  exact ⟨hopening, hclosing⟩

/-- **A search goes through a free text.** -/
theorem scan {limit : Nat} (hnames : ∀ name ∈ names, Unbroken name) (h : FreeOf names text)
    (hseam : Seam text after) : Markup.scan limit names (text ++ after) = Markup.scan limit names after := by
  induction text with
  | nil => rfl
  | cons c text ih =>
    have hno := h.1.append hnames hseam (List.cons_ne_nil c text)
    rw [List.cons_append] at hno ⊢
    rw [scan_skip hno.1 hno.opening?]
    exact ih h.2 hseam.of_cons

/-- Nothing is found in a free text. -/
theorem scan_self {limit : Nat} (hnames : ∀ name ∈ names, Unbroken name) (h : FreeOf names text) :
    Markup.scan limit names text = .ok [] := by
  have hscan := @scan names text [] limit hnames h (Or.inl rfl)
  rwa [List.append_nil, scan_nil] at hscan

/-- The search for a close tag goes through it as well. -/
theorem findClose {limit : Nat} {name : String} {depth : Nat} (hname : Unbroken name) (h : FreeOf [name] text)
    (hseam : Seam text after) :
    Markup.findClose limit name depth (text ++ after) = Markup.findClose limit name depth after := by
  induction text with
  | nil => rfl
  | cons c text ih =>
    have hno := h.1.append (by simpa using hname) hseam (List.cons_ne_nil c text)
    obtain ⟨hopening, hclosing⟩ := hno.2 name List.mem_cons_self
    rw [List.cons_append] at hno hopening hclosing ⊢
    rw [findClose_skip hno.1 hclosing hopening]
    exact ih h.2 hseam.of_cons

end FreeOf

/-! ## A close tag that is found -/

/-- The end of a tag that is read is where it was, whatever follows. -/
theorem cutTag?_behind {quote : Option Char} {text body rest : List Char} (h : cutTag? quote text = some (body, rest))
    (after : List Char) : cutTag? quote (text ++ after) = some (body, rest ++ after) := by
  induction text generalizing quote body with
  | nil => cases h
  | cons c text ih =>
    rw [List.cons_append]
    cases quote with
    | some q =>
      simp only [cutTag?, Option.map_eq_some_iff, Prod.mk.injEq, Prod.exists] at h ⊢
      obtain ⟨b, r, hcut, rfl, rfl⟩ := h
      exact ⟨b, r ++ after, ih hcut, rfl, rfl⟩
    | none =>
      simp only [cutTag?] at h ⊢
      split
      · next hc =>
        simp only [if_pos hc, Option.some.injEq, Prod.mk.injEq] at h ⊢
        obtain ⟨rfl, rfl⟩ := h
        exact ⟨rfl, rfl⟩
      · next hc =>
        simp only [if_neg hc, Option.map_eq_some_iff, Prod.mk.injEq, Prod.exists] at h ⊢
        obtain ⟨b, r, hcut, rfl, rfl⟩ := h
        exact ⟨b, r ++ after, ih hcut, rfl, rfl⟩

theorem finish?_behind {text rest : List Char} {tag : OpenTag} (h : finish? text = some (tag, rest))
    (after : List Char) : finish? (text ++ after) = some (tag, rest ++ after) := by
  simp only [finish?, Option.map_eq_some_iff, Prod.mk.injEq, Prod.exists] at h ⊢
  obtain ⟨body, r, hcut, rfl, rfl⟩ := h
  exact ⟨body, r ++ after, cutTag?_behind hcut after, rfl, rfl⟩

theorem behindTag_append {text : List Char} (h : '>' ∈ text) (after : List Char) :
    behindTag (text ++ after) = behindTag text ++ after := by
  induction text with
  | nil => cases h
  | cons c text ih =>
    by_cases hc : c = '>'
    · subst hc
      rfl
    · have hskip : ∀ more, behindTag (c :: more) = behindTag more := by
        intro more
        have hne : ¬(c == '>') = true := by simpa using hc
        unfold behindTag
        rw [cutAt?, if_neg hne]
        cases cutAt? (· == '>') more <;> rfl
      rw [List.cons_append, hskip, hskip]
      exact ih ((List.mem_cons.mp h).resolve_left fun heq => hc heq.symm)

section

variable {text : List Char} (hfinished : Finished text)

include hfinished

theorem opening?_behind {names : List String} (hnames : ∀ name ∈ names, Unbroken name) {found : String}
    {tail : List Char} (h : opening? names text = some (found, tail)) (after : List Char) :
    opening? names (text ++ after) = some (found, tail ++ after) := by
  obtain ⟨word, rfl, -, -⟩ := opening?_eq_some h
  have hmem : '>' ∈ word ++ tail := hfinished.1 rfl
  simp only [opening?, List.cons_append] at h ⊢
  induction names with
  | nil => cases h
  | cons name names ih =>
    rw [List.findSome?_cons] at h ⊢
    have hname := hnames name List.mem_cons_self
    cases hnamed : named? name (word ++ tail) with
    | some rest =>
      rw [hnamed] at h
      have hbehind : named? name (word ++ tail ++ after) = some (rest ++ after) :=
        stripWord?_behind hname.1.2 hmem hnamed after
      obtain ⟨hfound, hrest⟩ := Prod.mk.inj (Option.some.inj h)
      rw [hbehind, ← hfound, ← hrest]
      rfl
    | none =>
      rw [hnamed] at h
      have hnone : named? name (word ++ tail ++ after) = none :=
        stripWord?_seam hname.1.2 hname.2 (Or.inr (Or.inr hmem)) hnamed
      rw [hnone]
      exact ih (fun n hn => hnames n (List.mem_cons_of_mem name hn)) h

theorem mem_of_closing? {name : String} {tail : List Char} (h : closing? name text = some tail) : '>' ∈ text := by
  obtain ⟨word, rfl⟩ := closing?_eq_some h
  exact List.mem_cons_of_mem _ (hfinished.1 rfl)

theorem closing?_behind {name : String} (hname : Unbroken name) {tail : List Char} (h : closing? name text = some tail)
    (after : List Char) : closing? name (text ++ after) = some (tail ++ after) := by
  obtain ⟨word, rfl⟩ := closing?_eq_some h
  have hmem : '>' ∈ word ++ tail := (List.mem_cons.mp (hfinished.1 rfl)).resolve_left (by decide)
  exact stripWord?_behind hname.1.2 hmem h after

end

/-- **A close tag that is found in a text** without comments is found whatever follows. -/
theorem findClose_behind {limit : Nat} {name : String} {depth : Nat} {text close rest : List Char}
    (hname : Unbroken name) (hfree : FreeOf [] text) (hfinished : Finished text)
    (h : findClose limit name depth text = .ok (some (close, rest))) (limit' : Nat) (after : List Char) :
    findClose limit' name depth (text ++ after) = .ok (some (close ++ after, rest ++ after)) := by
  have hnames : ∀ n ∈ [name], Unbroken n := by simpa using hname
  -- the induction goes on with an end of the text
  fun_induction findClose limit name depth text with
  | case1 => cases h
  | case2 depth c cs more hc ih =>
    rw [hfree.1.1] at hc
    cases hc
  | case3 c cs hc tail hclosing =>
    obtain ⟨rfl, rfl⟩ := Prod.mk.inj (Option.some.inj (Except.ok.inj h))
    have hcomment := @comment?_seam _ after (Or.inr (Or.inr hfinished)) (List.cons_ne_nil c cs) hc
    rw [findClose_closing hcomment (closing?_behind hfinished hname hclosing after),
      behindTag_append (mem_of_closing? hfinished hclosing)]
  | case4 c cs hc tail hclosing depth ih =>
    have hcomment := @comment?_seam _ after (Or.inr (Or.inr hfinished)) (List.cons_ne_nil c cs) hc
    have hs := suffix_behindTag (c :: cs)
    rw [findClose_closing_inside hcomment (closing?_behind hfinished hname hclosing after),
      behindTag_append (mem_of_closing? hfinished hclosing)]
    exact ih (hfree.of_suffix hs) (hfinished.of_suffix hs) h
  | case5 => cases h
  | case6 depth c cs hc hclosing name' tail ho tag more hf ih =>
    have hseam : Seam (c :: cs) after := Or.inr (Or.inr hfinished)
    have hne := List.cons_ne_nil c cs
    have hs := (suffix_finish? hf).trans (suffix_opening? ho)
    rw [findClose_opening (comment?_seam hseam hne hc) (closing?_seam hname hseam hne hclosing)
      (opening?_behind hfinished hnames ho after) (finish?_behind hf after)]
    exact ih (hfree.of_suffix hs) (hfinished.of_suffix hs) h
  | case7 depth c cs hc hclosing ho ih =>
    have hseam : Seam (c :: cs) after := Or.inr (Or.inr hfinished)
    have hne := List.cons_ne_nil c cs
    have hs := List.suffix_cons c cs
    have hskip := @findClose_skip limit' name depth c (cs ++ after) (comment?_seam hseam hne hc)
      (closing?_seam hname hseam hne hclosing) (opening?_seam hnames hseam hne ho)
    rw [List.cons_append, hskip]
    exact ih (hfree.of_suffix hs) (hfinished.of_suffix hs) h

/-! ## Closed elements that are found -/

/-- **Closed elements that are found in a text** without comments are found whatever follows, and the search goes on
behind the text. -/
theorem scan_behind {limit : Nat} {names : List String} {text : List Char} {found : List Element}
    (hnames : ∀ name ∈ names, Unbroken name) (hfree : FreeOf [] text) (hfinished : Finished text)
    (h : scan limit names text = .ok found) (hclosed : ∀ e ∈ found, e.closed = true) (after : List Char) :
    scan (limit + size after) names (text ++ after) =
      (scan (limit + size after) names after).map (found ++ ·) := by
  have hmap : ∀ {x : Except Fault (List Element)} (e : Element) (more : List Element),
      (x.map (more ++ ·)).map (e :: ·) = x.map (e :: more ++ ·) := by
    intro x e more
    cases x <;> rfl
  have hat : ∀ rest : List Char, limit + size after - size (rest ++ after) = limit - size rest := by
    intro rest
    rw [size_append, Nat.add_sub_add_right]
  fun_induction scan limit names text generalizing found with
  | case1 =>
    obtain rfl := Except.ok.inj h
    rw [List.nil_append]
    cases scan (limit + size after) names after <;> rfl
  | case2 c cs rest hc ih =>
    rw [hfree.1.1] at hc
    cases hc
  | case3 c cs hc ho ih =>
    have hseam : Seam (c :: cs) after := Or.inr (Or.inr hfinished)
    have hne := List.cons_ne_nil c cs
    have hs := List.suffix_cons c cs
    have hskip := @scan_skip (limit + size after) names c (cs ++ after) (comment?_seam hseam hne hc)
      (opening?_seam hnames hseam hne ho)
    rw [List.cons_append, hskip]
    exact ih (hfree.of_suffix hs) (hfinished.of_suffix hs) h hclosed
  | case4 => cases h
  | case5 c cs hc name tail ho start tag rest hf openEnd hself =>
    rename_i ih
    have hcomment := @comment?_seam _ after (Or.inr (Or.inr hfinished)) (List.cons_ne_nil c cs) hc
    have hs := (suffix_finish? hf).trans (suffix_opening? ho)
    obtain ⟨more, hmore, rfl⟩ := exceptMap_eq_ok.mp h
    have hscan := @scan_single (limit + size after) names name _ _ _ _ hcomment
      (opening?_behind hfinished hnames ho after) (finish?_behind hf after) hself
    rw [hscan, hat, hat, ih (hfree.of_suffix hs) (hfinished.of_suffix hs) hmore
      fun e he => hclosed e (List.mem_cons_of_mem _ he), hmap]
  | case6 => cases h
  | case7 =>
    obtain ⟨more, -, rfl⟩ := exceptMap_eq_ok.mp h
    exact absurd (hclosed _ List.mem_cons_self) (by simp [Element.closed])
  | case8 c cs hc name tail ho start tag rest hf openEnd hself close rest' hx =>
    rename_i ih
    have hcomment := @comment?_seam _ after (Or.inr (Or.inr hfinished)) (List.cons_ne_nil c cs) hc
    have hs := (suffix_finish? hf).trans (suffix_opening? ho)
    have hbehind := (suffix_findClose hx).1.trans ((suffix_findClose hx).2.trans hs)
    obtain ⟨-, -, hmem, -⟩ := opening?_eq_some ho
    have hclose := findClose_behind (hnames name hmem) (hfree.of_suffix hs) (hfinished.of_suffix hs) hx
      (limit + size after) after
    obtain ⟨more, hmore, rfl⟩ := exceptMap_eq_ok.mp h
    have hscan := @scan_paired (limit + size after) names name _ _ _ _ _ _ hcomment
      (opening?_behind hfinished hnames ho after) (finish?_behind hf after) (by simpa using hself) hclose
    rw [hscan, hat, hat, hat, hat, ih (hfree.of_suffix hbehind) (hfinished.of_suffix hbehind) hmore
      fun e he => hclosed e (List.mem_cons_of_mem _ he), hmap]

end DashboardMarkup.Markup
