import DashboardMarkup.Proofs.Markup.Opens

/-!
# Elements of a text inside a longer one

Offsets count from the front of the document, so that an element has others wherever its text stands. That is
all: a search inside a text finds the same elements, and stops for the same reasons, if the text is a part of a
longer one. Every offset is higher by the size of what stands before.

* `scan_moved`: a search of a text that ends at a higher offset.
* `find_moved`: a search in a span of a text that stands behind another one.
* `text_moved`, `innerText_moved`: what a span or an element covers is the same.
-/

namespace DashboardMarkup

open Text (size size_append size_le_of_suffix)

/-- The same span further on. -/
def Span.moved (k : Nat) (span : Span) : Span :=
  ⟨k + span.start, k + span.stop⟩

/-- The same fault further on. -/
def Fault.moved (k : Nat) : Fault → Fault
  | unterminated name start => unterminated name (k + start)
  | unclosed name start => unclosed name (k + start)
  | misplaced span => misplaced (span.moved k)

theorem Fault.moved_zero (fault : Fault) : fault.moved 0 = fault := by
  cases fault <;> simp [Fault.moved, Span.moved]

namespace Markup

/-- The same parts of an element further on. -/
def Body.moved (k : Nat) : Body → Body
  | selfClosing => selfClosing
  | paired inner stop => paired (inner.moved k) (k + stop)
  | unclosed => unclosed

namespace Element

/-- The same element further on. -/
def moved (k : Nat) (e : Element) : Element :=
  { e with start := k + e.start, openEnd := k + e.openEnd, body := e.body.moved k }

variable (k : Nat) (e : Element)

@[simp] theorem name_moved : (e.moved k).name = e.name := rfl

@[simp] theorem attrs_moved : (e.moved k).attrs = e.attrs := rfl

@[simp] theorem start_moved : (e.moved k).start = k + e.start := rfl

theorem moved_zero : e.moved 0 = e := by
  obtain ⟨name, start, openEnd, attrs, body⟩ := e
  cases body <;> simp [moved, Body.moved, Span.moved]

@[simp] theorem inner?_moved : (e.moved k).inner? = e.inner?.map (Span.moved k) := by
  obtain ⟨name, start, openEnd, attrs, body⟩ := e
  cases body <;> rfl

@[simp] theorem content_moved : (e.moved k).content = e.content.moved k := by
  obtain ⟨name, start, openEnd, attrs, body⟩ := e
  cases body <;> rfl

end Element

/-! ## Searches of a text that ends further on -/

variable {names : List String} {limit : Nat} {text : List Char}

theorem findClose_moved (k : Nat) {name : String} {depth : Nat} (h : size text ≤ limit) :
    findClose (k + limit) name depth text = (findClose limit name depth text).mapError (Fault.moved k) := by
  fun_induction findClose limit name depth text with
  | case1 => rw [findClose_nil]; rfl
  | case2 depth c cs rest hc ih =>
    rw [findClose_comment hc]
    exact ih (Nat.le_trans (size_le_of_suffix (suffix_comment? hc)) h)
  | case3 c cs hc tail hclosing => rw [findClose_closing hc hclosing]; rfl
  | case4 c cs hc tail hclosing depth ih =>
    rw [findClose_closing_inside hc hclosing]
    exact ih (Nat.le_trans (size_le_of_suffix (suffix_behindTag _)) h)
  | case5 depth c cs hc hclosing name' tail ho hf =>
    rw [findClose_cons, hc, hclosing, ho]
    simp only [hf, Nat.add_sub_assoc h]
    rfl
  | case6 depth c cs hc hclosing name' tail ho tag rest hf ih =>
    rw [findClose_opening hc hclosing ho hf]
    exact ih (Nat.le_trans (size_le_of_suffix ((suffix_finish? hf).trans (suffix_opening? ho))) h)
  | case7 depth c cs hc hclosing ho ih =>
    rw [findClose_skip hc hclosing ho]
    exact ih (Nat.le_trans (size_le_of_suffix (List.suffix_cons c cs)) h)

/-- What is found further on. -/
def movedAll (k : Nat) (found : Except Fault (List Element)) : Except Fault (List Element) :=
  (found.map (List.map (Element.moved k))).mapError (Fault.moved k)

theorem movedAll_map_cons (k : Nat) (e : Element) (found : Except Fault (List Element)) :
    movedAll k (found.map (e :: ·)) = (movedAll k found).map (e.moved k :: ·) := by
  cases found <;> rfl

/-- **A search of a text that ends further on** finds the same. -/
theorem scan_moved (k : Nat) (h : size text ≤ limit) :
    scan (k + limit) names text = movedAll k (scan limit names text) := by
  have hsub : ∀ {rest : List Char}, size rest ≤ limit → k + limit - size rest = k + (limit - size rest) :=
    fun hle => Nat.add_sub_assoc hle k
  fun_induction scan limit names text with
  | case1 => rw [scan_nil]; rfl
  | case2 c cs rest hc ih =>
    rw [scan_comment hc]
    exact ih (Nat.le_trans (size_le_of_suffix (suffix_comment? hc)) h)
  | case3 c cs hc ho ih =>
    rw [scan_skip hc ho]
    exact ih (Nat.le_trans (size_le_of_suffix (List.suffix_cons c cs)) h)
  | case4 c cs hc name tail ho start hf =>
    rw [scan_cons, hc, ho]
    simp only [hf, hsub h]
    rfl
  | case5 c cs hc name tail ho start tag rest hf openEnd hself ih =>
    have hrest := Nat.le_trans (size_le_of_suffix ((suffix_finish? hf).trans (suffix_opening? ho))) h
    rw [movedAll_map_cons, ← ih hrest, scan_cons, hc, ho]
    simp only [hf, hself, if_true, hsub h, hsub hrest]
    rfl
  | case6 c cs hc name tail ho tag rest hf hself fault hx =>
    have hrest := Nat.le_trans (size_le_of_suffix ((suffix_finish? hf).trans (suffix_opening? ho))) h
    have hclose : findClose (k + limit) name 0 rest = .error (fault.moved k) := by
      rw [findClose_moved k hrest, hx]
      rfl
    rw [scan_cons, hc, ho]
    simp only [hf, hself, hclose]
    rfl
  | case7 c cs hc name tail ho start tag rest hf openEnd hself hx ih =>
    have hrest := Nat.le_trans (size_le_of_suffix ((suffix_finish? hf).trans (suffix_opening? ho))) h
    have hclose : findClose (k + limit) name 0 rest = .ok none := by
      rw [findClose_moved k hrest, hx]
      rfl
    rw [movedAll_map_cons, ← ih hrest, scan_cons, hc, ho]
    simp only [hf, hself, hclose, hsub h, hsub hrest]
    rfl
  | case8 c cs hc name tail ho start tag rest hf openEnd hself close behind hx ih =>
    have hrest := Nat.le_trans (size_le_of_suffix ((suffix_finish? hf).trans (suffix_opening? ho))) h
    have hcloses := Nat.le_trans (size_le_of_suffix (suffix_findClose hx).2) hrest
    have hbehind := Nat.le_trans (size_le_of_suffix (suffix_findClose hx).1) hcloses
    have hclose : findClose (k + limit) name 0 rest = .ok (some (close, behind)) := by
      rw [findClose_moved k hrest, hx]
      rfl
    rw [movedAll_map_cons, ← ih hbehind, scan_cons, hc, ho]
    simp only [hf, hself, hclose, hsub h, hsub hrest, hsub hcloses, hsub hbehind]
    rfl

end Markup

/-! ## Texts that stand behind others -/

variable {text : List Char} {span : Span} (before behind : List Char)

theorem Span.text_moved (hfits : span.Fits text) :
    (span.moved (size before)).text (before ++ (text ++ behind)) = span.text text := by
  obtain ⟨front, covered, rest, rfl, hstart, hstop⟩ := hfits
  have hinside : span.text (front ++ (covered ++ rest)) = .ok covered :=
    Span.text_eq_ok.mpr (Span.cut?_eq_some.mpr ⟨front, rest, rfl, hstart, hstop⟩)
  rw [hinside]
  refine Span.text_eq_ok.mpr (Span.cut?_eq_some.mpr ⟨before ++ front, rest ++ behind, by simp, ?_, ?_⟩)
  · rw [size_append, hstart]
    rfl
  · rw [size_append, Nat.add_assoc, hstop]
    rfl

namespace Markup

/-- **A search in a span of a text** finds the same if the text stands behind another one. -/
theorem find_moved (hfits : span.Fits text) (names : List String) :
    find (before ++ (text ++ behind)) (span.moved (size before)) names =
      movedAll (size before) (find text span names) := by
  obtain ⟨front, covered, rest, rfl, hstart, hstop⟩ := hfits
  obtain rfl : span = ⟨size front, size front + size covered⟩ := by
    rw [hstop, hstart]
  have hsplit : before ++ (front ++ (covered ++ rest) ++ behind) =
      (before ++ front) ++ (covered ++ (rest ++ behind)) := by
    simp
  have hspan : Span.moved (size before) ⟨size front, size front + size covered⟩ =
      ⟨size (before ++ front), size (before ++ front) + size covered⟩ := by
    simp only [Span.moved, size_append, Nat.add_assoc]
  rw [find_append, hsplit, hspan, find_append, size_append, Nat.add_assoc]
  exact scan_moved (size before) (by omega)

/-- What an element covers between its tags. -/
theorem innerText_moved {e : Element} (h : e.Sited text) :
    (e.moved (size before)).innerText (before ++ (text ++ behind)) = e.innerText text := by
  unfold Element.innerText
  rw [Element.inner?_moved]
  cases hinner : e.inner? with
  | none => rfl
  | some inner =>
    obtain ⟨limit, hstands⟩ := h.stands
    exact Span.text_moved before behind (hstands.fits_inner hinner)

end Markup

end DashboardMarkup
