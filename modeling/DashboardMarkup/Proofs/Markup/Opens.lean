import DashboardMarkup.Proofs.Markup.Standing
import DashboardMarkup.Proofs.Markup.Step

/-!
# Where tags begin

A search looks at each `<` for the names that it is after, and all that it reports begins at one of them: an
element as well as an open tag without its end. This holds of any document, however ill-formed.

* `Opens`: at an offset of a document stand a `<` and a name.
* `opensIn_of_mem_scan`, `in_of_scan_error`: what a search reports begins so.
* `Element.Sited`: what is known of every element that is found, wherever it is.
* `found_of_find`, `opens_of_find_error`: what a search gives in a span that fits, and where it fails.
-/

namespace DashboardMarkup

open Text

namespace Markup

/-- At an offset of a document stand a `<` and, right behind it, one of some names in any case of letters. -/
def Opens (doc : List Char) (names : List String) (offset : Nat) : Prop :=
  ∃ before word rest, doc = before ++ '<' :: (word ++ rest) ∧ size before = offset ∧
    ∃ name ∈ names, lower word = lower name.toList

theorem Opens.mono {doc : List Char} {names more : List String} {offset : Nat} (h : Opens doc names offset)
    (hsub : ∀ name ∈ names, name ∈ more) : Opens doc more offset := by
  obtain ⟨before, word, rest, hdoc, hoffset, name, hname, hword⟩ := h
  exact ⟨before, word, rest, hdoc, hoffset, name, hsub name hname, hword⟩

theorem Opens.at_lt {doc : List Char} {names : List String} {offset : Nat} (h : Opens doc names offset) :
    At doc offset '<' := by
  obtain ⟨before, word, rest, hdoc, hoffset, -⟩ := h
  exact ⟨before, word ++ rest, hdoc, hoffset⟩

/-! ## Texts that end at an offset -/

/-- A tag of a name begins in a text that ends at `limit`, at an offset counted from there. -/
def OpensIn (limit : Nat) (text : List Char) (name : String) (offset : Nat) : Prop :=
  ∃ front word rest, text = front ++ '<' :: (word ++ rest) ∧
    offset + size ('<' :: (word ++ rest)) = limit ∧ lower word = lower name.toList

theorem OpensIn.of_suffix {limit : Nat} {text rest : List Char} {name : String} {offset : Nat}
    (h : OpensIn limit rest name offset) (hs : rest <:+ text) : OpensIn limit text name offset := by
  obtain ⟨front, word, tail, rfl, hoffset, hword⟩ := h
  obtain ⟨gap, rfl⟩ := hs
  exact ⟨gap ++ front, word, tail, by simp, hoffset, hword⟩

theorem OpensIn.opens {limit : Nat} {text : List Char} {name : String} {offset : Nat}
    (h : OpensIn limit text name offset) {doc before behind : List Char}
    (hdoc : doc = before ++ (text ++ behind)) (hlimit : size before + size text = limit) :
    Opens doc [name] offset := by
  obtain ⟨front, word, rest, rfl, hoffset, hword⟩ := h
  refine ⟨before ++ front, word, rest ++ behind, by simp [hdoc], ?_, name, List.mem_singleton.mpr rfl, hword⟩
  rw [size_append] at hlimit ⊢
  omega

/-- What begins with a tag that is looked for. -/
theorem opensIn_of_opening {limit : Nat} {names : List String} {text tail : List Char} {name : String}
    (h : opening? names text = some (name, tail)) (hsize : size text ≤ limit) :
    OpensIn limit text name (limit - size text) := by
  obtain ⟨word, rfl, -, hword⟩ := opening?_eq_some h
  exact ⟨[], word, tail, rfl, by omega, hword⟩

/-- A fault that a search ends with: an open tag without its end, which begins in the text. -/
def Fault.In (limit : Nat) (text : List Char) : Fault → Prop
  | .unterminated name start => OpensIn limit text name start
  | _ => False

theorem Fault.In.of_suffix {limit : Nat} {text rest : List Char} {fault : Fault}
    (h : Fault.In limit rest fault) (hs : rest <:+ text) : Fault.In limit text fault := by
  cases fault with
  | unterminated name start => exact OpensIn.of_suffix h hs
  | unclosed name start => exact h
  | misplaced span => exact h

/-- A search for a close tag fails at an open tag that has no end. -/
theorem in_of_findClose_error {limit : Nat} {name : String} {depth : Nat} {text : List Char} {fault : Fault}
    (h : findClose limit name depth text = .error fault) (hsize : size text ≤ limit) :
    Fault.In limit text fault := by
  fun_induction findClose limit name depth text with
  | case1 => cases h
  | case2 depth c cs rest hc ih =>
    have hs := suffix_comment? hc
    exact (ih h (Nat.le_trans (size_le_of_suffix hs) hsize)).of_suffix hs
  | case3 => cases h
  | case4 c cs hc r hr depth ih =>
    have hs := suffix_behindTag (c :: cs)
    exact (ih h (Nat.le_trans (size_le_of_suffix hs) hsize)).of_suffix hs
  | case5 depth c cs hc hx n tail ho hf =>
    obtain rfl := Except.error.inj h
    obtain ⟨word, htext, hname, hword⟩ := opening?_eq_some ho
    obtain rfl := List.mem_singleton.mp hname
    exact opensIn_of_opening ho hsize
  | case6 depth c cs hc hx n tail ho tag rest hf ih =>
    have hs := (suffix_finish? hf).trans (suffix_opening? ho)
    exact (ih h (Nat.le_trans (size_le_of_suffix hs) hsize)).of_suffix hs
  | case7 depth c cs hc hx ho ih =>
    have hs := List.suffix_cons c cs
    exact (ih h (Nat.le_trans (size_le_of_suffix hs) hsize)).of_suffix hs

/-- So does a search for elements. -/
theorem in_of_scan_error {limit : Nat} {names : List String} {text : List Char} {fault : Fault}
    (h : scan limit names text = .error fault) (hsize : size text ≤ limit) : Fault.In limit text fault := by
  fun_induction scan limit names text with
  | case1 => cases h
  | case2 c cs rest hc ih =>
    have hs := suffix_comment? hc
    exact (ih h (Nat.le_trans (size_le_of_suffix hs) hsize)).of_suffix hs
  | case3 c cs hc ho ih =>
    have hs := List.suffix_cons c cs
    exact (ih h (Nat.le_trans (size_le_of_suffix hs) hsize)).of_suffix hs
  | case4 =>
    rename_i c cs hc name tail ho start hf
    obtain rfl := Except.error.inj h
    exact opensIn_of_opening ho hsize
  | case5 =>
    rename_i c cs hc name tail ho start tag rest hf openEnd hself ih
    have hs := (suffix_finish? hf).trans (suffix_opening? ho)
    exact (ih (exceptMap_eq_error.mp h) (Nat.le_trans (size_le_of_suffix hs) hsize)).of_suffix hs
  | case6 =>
    rename_i c cs hc name tail ho tag rest hf hself other hx
    obtain rfl := Except.error.inj h
    have hs := (suffix_finish? hf).trans (suffix_opening? ho)
    exact (in_of_findClose_error hx (Nat.le_trans (size_le_of_suffix hs) hsize)).of_suffix hs
  | case7 =>
    rename_i c cs hc name tail ho start tag rest hf openEnd hself hx ih
    have hs := (suffix_finish? hf).trans (suffix_opening? ho)
    exact (ih (exceptMap_eq_error.mp h) (Nat.le_trans (size_le_of_suffix hs) hsize)).of_suffix hs
  | case8 =>
    rename_i c cs hc name tail ho start tag rest hf openEnd hself close behind hx ih
    obtain ⟨hbehind, hclose⟩ := suffix_findClose hx
    have hs := hbehind.trans (hclose.trans ((suffix_finish? hf).trans (suffix_opening? ho)))
    exact (ih (exceptMap_eq_error.mp h) (Nat.le_trans (size_le_of_suffix hs) hsize)).of_suffix hs

/-- Each element that a search finds begins with a tag of its name. -/
theorem opensIn_of_mem_scan {limit : Nat} {names : List String} {text : List Char} {found : List Element}
    (h : scan limit names text = .ok found) (hsize : size text ≤ limit) :
    ∀ e ∈ found, OpensIn limit text e.name e.start := by
  fun_induction scan limit names text generalizing found with
  | case1 =>
    obtain rfl := Except.ok.inj h
    exact fun e he => absurd he List.not_mem_nil
  | case2 c cs rest hc ih =>
    have hs := suffix_comment? hc
    exact fun e he => (ih h (Nat.le_trans (size_le_of_suffix hs) hsize) e he).of_suffix hs
  | case3 c cs hc ho ih =>
    have hs := List.suffix_cons c cs
    exact fun e he => (ih h (Nat.le_trans (size_le_of_suffix hs) hsize) e he).of_suffix hs
  | case4 => cases h
  | case5 =>
    rename_i c cs hc name tail ho start tag rest hf openEnd hself ih
    obtain ⟨more, hmore, rfl⟩ := exceptMap_eq_ok.mp h
    have hs := (suffix_finish? hf).trans (suffix_opening? ho)
    refine List.forall_mem_cons.mpr ⟨opensIn_of_opening ho hsize, fun e he => ?_⟩
    exact (ih hmore (Nat.le_trans (size_le_of_suffix hs) hsize) e he).of_suffix hs
  | case6 => cases h
  | case7 =>
    rename_i c cs hc name tail ho start tag rest hf openEnd hself hx ih
    obtain ⟨more, hmore, rfl⟩ := exceptMap_eq_ok.mp h
    have hs := (suffix_finish? hf).trans (suffix_opening? ho)
    refine List.forall_mem_cons.mpr ⟨opensIn_of_opening ho hsize, fun e he => ?_⟩
    exact (ih hmore (Nat.le_trans (size_le_of_suffix hs) hsize) e he).of_suffix hs
  | case8 =>
    rename_i c cs hc name tail ho start tag rest hf openEnd hself close behind hx ih
    obtain ⟨more, hmore, rfl⟩ := exceptMap_eq_ok.mp h
    obtain ⟨hbehind, hclose⟩ := suffix_findClose hx
    have hs := hbehind.trans (hclose.trans ((suffix_finish? hf).trans (suffix_opening? ho)))
    refine List.forall_mem_cons.mpr ⟨opensIn_of_opening ho hsize, fun e he => ?_⟩
    exact (ih hmore (Nat.le_trans (size_le_of_suffix hs) hsize) e he).of_suffix hs

/-! ## Searches in a document -/

/-- **What is known of every element that is found**: it begins with a tag of its name, and its parts are where
its offsets say. -/
structure Element.Sited (doc : List Char) (e : Element) : Prop where
  opens : Opens doc [e.name] e.start
  stands : ∃ limit, e.Stands doc limit

namespace Element.Sited

variable {doc : List Char} {e : Element}

theorem fits_content (h : e.Sited doc) : e.content.Fits doc := by
  obtain ⟨limit, hstands⟩ := h.stands
  exact hstands.fits_content

theorem fits_span (h : e.Sited doc) : e.span.Fits doc := by
  obtain ⟨limit, hstands⟩ := h.stands
  exact hstands.fits_span

theorem fits_open (h : e.Sited doc) : Span.Fits ⟨e.start, e.openEnd⟩ doc := by
  obtain ⟨limit, hstands⟩ := h.stands
  exact hstands.fits_open

/-- The text between its tags can be read. -/
theorem exists_innerText (h : e.Sited doc) : ∃ text, e.innerText doc = .ok text := by
  unfold innerText
  cases hi : e.inner? with
  | none => exact ⟨[], rfl⟩
  | some inner =>
    obtain ⟨limit, hstands⟩ := h.stands
    exact (hstands.fits_inner hi).text_eq_ok

end Element.Sited

/-- The text that a search looks at, in the document. -/
theorem find_eq_scan {doc : List Char} {span : Span} (hfits : span.Fits doc) (names : List String) :
    ∃ before text behind, doc = before ++ (text ++ behind) ∧ size before + size text = span.stop ∧
      find doc span names = scan span.stop names text := by
  have hmin : min span.stop (size doc) = span.stop := Nat.min_eq_left hfits.stop_le_size
  obtain ⟨before, text, behind, hdoc, hstart, hstop⟩ := hfits
  refine ⟨before, text, behind, hdoc, hstop, ?_⟩
  have hcut : span.cut? doc = some text := Span.cut?_eq_some.mpr ⟨before, behind, hdoc, hstart, hstop⟩
  unfold find
  simp only [hmin]
  split
  · rw [Span.text_eq_ok.mpr hcut]
  · have hempty : text = [] := size_eq_zero.mp (by omega)
    rw [hempty, scan_nil]

/-- **What a search gives**: elements of the names it is after, sited in the document, inside the span and one
behind another. -/
structure Found (doc : List Char) (span : Span) (names : List String) (found : List Element) : Prop where
  name : ∀ e ∈ found, e.name ∈ names
  sited : ∀ e ∈ found, e.Sited doc
  within : ∀ e ∈ found, e.Within span
  ordered : found.Pairwise fun a b => a.stop ≤ b.start

theorem found_of_find {doc : List Char} {span : Span} (hfits : span.Fits doc) {names : List String}
    {found : List Element} (h : find doc span names = .ok found) : Found doc span names found where
  name e he := (stands_of_mem_find h e he).1
  sited e he := by
    obtain ⟨before, text, behind, hdoc, hlimit, hscan⟩ := find_eq_scan hfits names
    have hstands := (stands_of_mem_find h e he).2
    rw [hscan] at h
    have hopens := opensIn_of_mem_scan h (by omega) e he
    exact ⟨hopens.opens hdoc hlimit, _, hstands⟩
  within := within_of_mem_find h
  ordered := pairwise_of_find h

/-- **A search in a span that fits fails only at an open tag that has no end.** -/
theorem opens_of_find_error {doc : List Char} {span : Span} (hfits : span.Fits doc) {names : List String}
    {fault : Fault} (h : find doc span names = .error fault) :
    ∃ name start, fault = .unterminated name start ∧ Opens doc [name] start := by
  obtain ⟨before, text, behind, hdoc, hlimit, hscan⟩ := find_eq_scan hfits names
  rw [hscan] at h
  have hin := in_of_scan_error h (by omega)
  cases fault with
  | unterminated name start => exact ⟨name, start, rfl, OpensIn.opens hin hdoc hlimit⟩
  | unclosed name start => exact hin.elim
  | misplaced other => exact hin.elim

end Markup

end DashboardMarkup
