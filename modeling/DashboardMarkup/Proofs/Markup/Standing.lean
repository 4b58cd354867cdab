import DashboardMarkup.Markup.Bounds
import DashboardMarkup.Proofs.Text.Offset

/-!
# What stands in a document where an element is found

The offsets of an element divide the document: an open tag from `<` to `>`, then, for a paired element,
its content and a close tag. This holds of any document, however ill-formed.

* `Scanned`: what a search makes of its text. `scanned_of_scan`: every search that succeeds does so.
* `Element.Stands`: the division of the document, with what is known of each part.
* `stands_of_mem_find`: every element that is found stands in the document.
* `pairwise_of_find`: elements found by one search lie one behind another.
-/

namespace DashboardMarkup.Markup

open Text

/-! ## What a tag begins with -/

theorem named?_eq_some {name : String} {text rest : List Char} (h : named? name text = some rest) :
    ∃ found, text = found ++ rest ∧ lower found = lower name.toList ∧ endsName rest = true := by
  simp only [named?, Option.filter_eq_some_iff] at h
  obtain ⟨found, htext, hlower⟩ := append_of_stripWord? h.1
  exact ⟨found, htext, hlower, h.2⟩

theorem opening?_eq_some {names : List String} {name : String} {text rest : List Char}
    (h : opening? names text = some (name, rest)) :
    ∃ found, text = '<' :: (found ++ rest) ∧ name ∈ names ∧ lower found = lower name.toList := by
  unfold opening? at h
  split at h
  · obtain ⟨n, hmem, hn⟩ := List.exists_of_findSome?_eq_some h
    simp only [Option.map_eq_some_iff, Prod.mk.injEq] at hn
    obtain ⟨r, hr, rfl, rfl⟩ := hn
    obtain ⟨found, htext, hlower, -⟩ := named?_eq_some hr
    exact ⟨found, by rw [htext], hmem, hlower⟩
  · exact absurd h (by simp)

theorem closing?_eq_some {name : String} {text rest : List Char}
    (h : closing? name text = some rest) : ∃ found, text = '<' :: '/' :: (found ++ rest) := by
  unfold closing? at h
  split at h
  · obtain ⟨found, htext, -⟩ := named?_eq_some h
    exact ⟨found, by rw [htext]⟩
  · exact absurd h (by simp)

theorem finish?_eq_some {text rest : List Char} {tag : OpenTag} (h : finish? text = some (tag, rest)) :
    ∃ body, text = body ++ '>' :: rest := by
  simp only [finish?, Option.map_eq_some_iff, Prod.mk.injEq, Prod.exists] at h
  obtain ⟨body, r, hcut, -, rfl⟩ := h
  exact ⟨body, append_of_cutTag? hcut⟩

/-- An open tag of one of some names stands from its `<` to its `>`. -/
theorem append_of_open {names : List String} {name : String} {text tail rest : List Char}
    {tag : OpenTag} (ho : opening? names text = some (name, tail))
    (hf : finish? tail = some (tag, rest)) :
    ∃ t, text = '<' :: (t ++ ['>']) ++ rest ∧ name ∈ names := by
  obtain ⟨word, rfl, hname, -⟩ := opening?_eq_some ho
  obtain ⟨body, rfl⟩ := finish?_eq_some hf
  exact ⟨word ++ body, by simp, hname⟩

/-- A close tag ends at a `>`, or else the text ends. -/
theorem append_behindTag (text : List Char) :
    ∃ tag, text = tag ++ behindTag text ∧ ((∃ t, tag = t ++ ['>']) ∨ behindTag text = []) := by
  unfold behindTag
  split
  · next before rest hcut =>
    obtain ⟨c, hc, -, rfl⟩ := append_of_cutAt? hcut
    refine ⟨before ++ [c], by simp, Or.inl ⟨before, ?_⟩⟩
    rw [beq_iff_eq.mp hc]
  · exact ⟨text, by simp, Or.inr rfl⟩

/-- The close tag that is found is one of the name, and the text behind it is left. -/
theorem closing_of_findClose {limit : Nat} {name : String} {depth : Nat} {text close rest : List Char}
    (h : findClose limit name depth text = .ok (some (close, rest))) :
    (closing? name close).isSome ∧ rest = behindTag close := by
  fun_induction findClose limit name depth text with
  | case1 => simp at h
  | case2 _ _ _ _ _ ih => exact ih h
  | case3 c cs hc r hr =>
    simp only [Except.ok.injEq, Option.some.injEq, Prod.mk.injEq] at h
    obtain ⟨rfl, rfl⟩ := h
    exact ⟨by simp [hr], rfl⟩
  | case4 _ _ _ _ _ _ ih => exact ih h
  | case5 => simp at h
  | case6 _ _ _ _ _ _ _ _ _ _ _ ih => exact ih h
  | case7 _ _ _ _ _ _ ih => exact ih h

theorem append_of_findClose {limit : Nat} {name : String} {depth : Nat} {text close rest : List Char}
    (h : findClose limit name depth text = .ok (some (close, rest))) :
    ∃ closing, close = closing ++ rest ∧ (∃ t, closing = '<' :: t) ∧
      ((∃ t, closing = t ++ ['>']) ∨ rest = []) := by
  obtain ⟨hclosing, rfl⟩ := closing_of_findClose h
  obtain ⟨tail, htail⟩ := Option.isSome_iff_exists.mp hclosing
  obtain ⟨word, hslash⟩ := closing?_eq_some htail
  obtain ⟨closing, hsplit, hends⟩ := append_behindTag close
  refine ⟨closing, hsplit, ?_, hends⟩
  cases closing with
  | nil =>
    have := (length_findClose h).1
    rw [List.nil_append] at hsplit
    rw [← hsplit] at this
    exact absurd this (Nat.lt_irrefl _)
  | cons d t =>
    rw [hslash, List.cons_append] at hsplit
    exact ⟨t, by rw [(List.cons.inj hsplit).1]⟩

/-! ## What a search makes of a text -/

/-- An element spelled out: its open tag, content and close tag, with the text behind it. All offsets are
counted from `limit`, where that text ends. Only a close tag at the end of the text may lack its `>`. -/
structure Element.Spelled (limit : Nat) (e : Element) (opening content closing rest : List Char) :
    Prop where
  tag : ∃ t, opening = '<' :: (t ++ ['>'])
  start : e.start + size (opening ++ (content ++ (closing ++ rest))) = limit
  openEnd : e.openEnd + size (content ++ (closing ++ rest)) = limit
  body : match e.body with
    | .paired inner stop =>
      inner.start = e.openEnd ∧ inner.stop + size (closing ++ rest) = limit ∧
        stop + size rest = limit ∧ (∃ t, closing = '<' :: t) ∧
          ((∃ t, closing = t ++ ['>']) ∨ rest = [])
    | _ => content = [] ∧ closing = []

/-- A text that ends at `limit`, and elements of some names spelled in it one behind another. -/
inductive Scanned (limit : Nat) (names : List String) : List Char → List Element → Prop
  | done (text : List Char) : Scanned limit names text []
  | element {e : Element} {more : List Element} (gap opening content closing rest : List Char)
      (name : e.name ∈ names) (spelled : e.Spelled limit opening content closing rest)
      (tail : Scanned limit names rest more) :
      Scanned limit names (gap ++ (opening ++ (content ++ (closing ++ rest)))) (e :: more)

theorem Scanned.skip {limit : Nat} {names : List String} {text : List Char} {found : List Element}
    (h : Scanned limit names text found) (front : List Char) :
    Scanned limit names (front ++ text) found := by
  cases h with
  | done => exact .done _
  | element gap opening content closing rest name spelled tail =>
    rw [← List.append_assoc]
    exact .element (front ++ gap) opening content closing rest name spelled tail

/-- **Every search that succeeds spells its elements out of the text, one behind another.** -/
theorem scanned_of_scan {limit : Nat} {names : List String} {text : List Char} {found : List Element}
    (hsize : size text ≤ limit) (h : scan limit names text = .ok found) :
    Scanned limit names text found := by
  fun_induction scan limit names text generalizing found with
  | case1 =>
    obtain rfl := Except.ok.inj h
    exact .done _
  | case2 c cs r hc ih =>
    obtain ⟨front, hfront⟩ := suffix_comment? hc
    rw [← hfront, size_append] at hsize
    rw [← hfront]
    exact (ih (by omega) h).skip front
  | case3 c cs hc ho ih =>
    rw [size_cons] at hsize
    exact (ih (by omega) h).skip [c]
  | case4 => simp at h
  | case5 =>
    rename_i c cs hc name tail ho start tag rest hf openEnd hself ih
    obtain ⟨more, hmore, rfl⟩ := exceptMap_eq_ok.1 h
    obtain ⟨t, hwhole, hname⟩ := append_of_open ho hf
    simp only [start, openEnd, hwhole, size_append] at hsize ⊢
    refine .element [] _ [] [] rest hname (.mk ⟨t, rfl⟩ ?_ ?_ ?_) (ih (by omega) hmore)
    · simp only [size_append, size_nil]
      omega
    · simp only [size_append, size_nil]
      omega
    · exact ⟨rfl, rfl⟩
  | case6 => simp at h
  | case7 =>
    rename_i c cs hc name tail ho start tag rest hf openEnd hself hx ih
    obtain ⟨more, hmore, rfl⟩ := exceptMap_eq_ok.1 h
    obtain ⟨t, hwhole, hname⟩ := append_of_open ho hf
    simp only [start, openEnd, hwhole, size_append] at hsize ⊢
    refine .element [] _ [] [] rest hname (.mk ⟨t, rfl⟩ ?_ ?_ ?_) (ih (by omega) hmore)
    · simp only [size_append, size_nil]
      omega
    · simp only [size_append, size_nil]
      omega
    · exact ⟨rfl, rfl⟩
  | case8 =>
    rename_i c cs hc name tail ho start tag rest hf openEnd hself close left hx ih
    obtain ⟨more, hmore, rfl⟩ := exceptMap_eq_ok.1 h
    obtain ⟨t, hwhole, hname⟩ := append_of_open ho hf
    obtain ⟨content, rfl⟩ := (suffix_findClose hx).2
    obtain ⟨closing, rfl, hopens, hends⟩ := append_of_findClose hx
    simp only [start, openEnd, hwhole, size_append] at hsize ⊢
    refine .element [] _ content closing left hname
      (.mk ⟨t, rfl⟩ ?_ ?_ ?_) (ih (by omega) hmore)
    · simp only [size_append]
      omega
    · simp only [size_append]
      omega
    · refine ⟨rfl, ?_, ?_, hopens, hends⟩
      · simp only [size_append]
        omega
      · omega

theorem Element.Spelled.stop_add {limit : Nat} {e : Element} {opening content closing rest : List Char}
    (h : e.Spelled limit opening content closing rest) : e.stop + size rest = limit := by
  have hbody := h.body
  have hopen := h.openEnd
  unfold stop
  cases hb : e.body with
  | paired inner stop =>
    rw [hb] at hbody
    exact hbody.2.2.1
  | selfClosing =>
    rw [hb] at hbody
    obtain ⟨rfl, rfl⟩ := hbody
    simpa using hopen
  | unclosed =>
    rw [hb] at hbody
    obtain ⟨rfl, rfl⟩ := hbody
    simpa using hopen

/-! ## Where an element stands in a document -/

/-- **An element stands in a document** at its offsets: behind the text before it come its open tag, its
content, its close tag, the rest of the text that was searched, up to `limit`, and the text behind that. -/
def Element.Stands (doc : List Char) (limit : Nat) (e : Element) : Prop :=
  ∃ before opening content closing rest behind,
    doc = before ++ (opening ++ (content ++ (closing ++ (rest ++ behind)))) ∧
      size before + size (opening ++ (content ++ (closing ++ rest))) = limit ∧
      e.Spelled limit opening content closing rest

namespace Element.Stands

variable {doc : List Char} {limit : Nat} {e : Element}

theorem at_start (h : e.Stands doc limit) : At doc e.start '<' := by
  obtain ⟨before, _, content, closing, rest, behind, rfl, hlimit, ⟨t, rfl⟩, hstart, -, -⟩ := h
  exact ⟨before, _, rfl, by omega⟩

/-- The open tag. -/
theorem fits_open (h : e.Stands doc limit) : Span.Fits ⟨e.start, e.openEnd⟩ doc := by
  obtain ⟨before, opening, content, closing, rest, behind, rfl, hlimit, -, hstart, hopen, -⟩ := h
  simp only [size_append] at hlimit hstart hopen
  exact ⟨before, opening, _, rfl, by simp only; omega, by simp only; omega⟩

theorem start_lt_openEnd (h : e.Stands doc limit) : e.start < e.openEnd := by
  have hlt : 0 < ('<').utf8Size := Char.utf8Size_pos _
  obtain ⟨before, _, content, closing, rest, behind, rfl, hlimit, ⟨t, rfl⟩, hstart, hopen, -⟩ := h
  simp only [size_append, size_cons] at hlimit hstart hopen
  omega

theorem start_lt_stop (h : e.Stands doc limit) : e.start < e.stop := by
  have hlt : 0 < ('<').utf8Size := Char.utf8Size_pos _
  obtain ⟨before, _, content, closing, rest, behind, rfl, hlimit, hspelled⟩ := h
  have hstart := hspelled.start
  have hstop := hspelled.stop_add
  obtain ⟨t, rfl⟩ := hspelled.tag
  simp only [size_append, size_cons] at hstart hstop
  omega

theorem openEnd_le_stop (h : e.Stands doc limit) : e.openEnd ≤ e.stop := by
  obtain ⟨_, _, content, closing, rest, _, -, -, hspelled⟩ := h
  have hopen := hspelled.openEnd
  have hstop := hspelled.stop_add
  simp only [size_append] at hopen
  omega

theorem fits_inner (h : e.Stands doc limit) {inner : Span} (hi : e.inner? = some inner) :
    inner.Fits doc := by
  obtain ⟨before, opening, content, closing, rest, behind, rfl, hlimit, -, hstart, hopen, hbody⟩ := h
  unfold inner? at hi
  split at hi
  · next span stop heq =>
    rw [heq] at hbody
    obtain rfl := Option.some.inj hi
    obtain ⟨hs, he, -⟩ := hbody
    simp only [size_append] at hlimit hstart hopen he
    exact ⟨before ++ opening, content, closing ++ (rest ++ behind), by simp,
      by simp only [size_append]; omega, by simp only [size_append]; omega⟩
  · exact absurd hi (by simp)

/-- The content begins behind the open tag. -/
theorem inner_start (h : e.Stands doc limit) {inner : Span} (hi : e.inner? = some inner) :
    inner.start = e.openEnd := by
  obtain ⟨_, _, _, _, _, _, -, -, -, -, -, hbody⟩ := h
  unfold inner? at hi
  split at hi
  · next span stop heq =>
    rw [heq] at hbody
    obtain rfl := Option.some.inj hi
    exact hbody.1
  · exact absurd hi (by simp)

theorem inner_stop_le (h : e.Stands doc limit) {inner : Span} (hi : e.inner? = some inner) :
    inner.stop ≤ e.stop := by
  obtain ⟨_, _, _, closing, rest, _, -, -, hspelled⟩ := h
  have hstop := hspelled.stop_add
  have hbody := hspelled.body
  unfold inner? at hi
  split at hi
  · next span stop heq =>
    rw [heq] at hbody
    obtain rfl := Option.some.inj hi
    obtain ⟨-, hclose, -⟩ := hbody
    rw [size_append] at hclose
    omega
  · exact absurd hi (by simp)

/-- Right behind the content of an element stands its close tag. -/
theorem at_inner_stop (h : e.Stands doc limit) {inner : Span} (hi : e.inner? = some inner) :
    At doc inner.stop '<' := by
  obtain ⟨before, opening, content, closing, rest, behind, rfl, hlimit, -, hstart, hopen, hbody⟩ := h
  unfold inner? at hi
  split at hi
  · next span stop heq =>
    rw [heq] at hbody
    obtain rfl := Option.some.inj hi
    obtain ⟨-, he, -, ⟨t, rfl⟩, -⟩ := hbody
    simp only [size_append] at hlimit hstart hopen he
    exact ⟨before ++ (opening ++ content), t ++ (rest ++ behind), by simp,
      by simp only [size_append]; omega⟩
  · exact absurd hi (by simp)

/-- The content of an element, or the place behind its open tag. -/
theorem fits_content (h : e.Stands doc limit) : e.content.Fits doc := by
  unfold content
  cases hi : e.inner? with
  | some inner => exact h.fits_inner hi
  | none => exact h.fits_open.at_stop

theorem fits_span (h : e.Stands doc limit) : e.span.Fits doc := by
  obtain ⟨before, opening, content, closing, rest, behind, rfl, hlimit, hspelled⟩ := h
  have hstart := hspelled.start
  have hstop := hspelled.stop_add
  simp only [size_append] at hlimit hstart
  refine ⟨before, opening ++ (content ++ closing), rest ++ behind, by simp, ?_, ?_⟩
  · simp only [span]
    omega
  · simp only [span, size_append]
    omega

/-- An element ends with a `>`, or with the text that was searched. -/
theorem ends (h : e.Stands doc limit) :
    (∃ n, At doc n '>' ∧ n + 1 = e.stop) ∨ e.stop = limit := by
  have hgt : ('>').utf8Size = 1 := rfl
  obtain ⟨before, opening, content, closing, rest, behind, rfl, hlimit, hspelled⟩ := h
  have hstop := hspelled.stop_add
  have hbody := hspelled.body
  obtain ⟨t, rfl⟩ := hspelled.tag
  -- an element without a close tag ends with its open tag
  have hopen : content = [] ∧ closing = [] →
      ∃ n, At (before ++ ('<' :: (t ++ ['>']) ++ (content ++ (closing ++ (rest ++ behind))))) n '>' ∧
        n + 1 = e.stop := by
    rintro ⟨rfl, rfl⟩
    refine ⟨_, ⟨before ++ '<' :: t, rest ++ behind, by simp, rfl⟩, ?_⟩
    simp only [size_append, size_cons, size_nil, hgt] at hlimit ⊢
    omega
  cases hb : e.body with
  | paired inner stop =>
    rw [hb] at hbody
    obtain ⟨-, -, -, -, ⟨u, rfl⟩ | rfl⟩ := hbody
    · refine Or.inl ⟨_, ⟨before ++ ('<' :: (t ++ ['>']) ++ (content ++ u)), rest ++ behind, by simp, rfl⟩, ?_⟩
      simp only [size_append, size_cons, size_nil, hgt] at hlimit ⊢
      omega
    · right
      simpa using hstop
  | selfClosing =>
    rw [hb] at hbody
    exact Or.inl (hopen hbody)
  | unclosed =>
    rw [hb] at hbody
    exact Or.inl (hopen hbody)

end Element.Stands

theorem Scanned.stands {names : List String} {text : List Char} {limit : Nat} {found : List Element}
    (h : Scanned limit names text found) {doc before behind : List Char}
    (hdoc : doc = before ++ (text ++ behind)) (hlimit : size before + size text = limit) :
    ∀ e ∈ found, e.name ∈ names ∧ e.Stands doc limit := by
  induction h generalizing before with
  | done => simp
  | element gap opening content closing rest name spelled tail ih =>
    intro e he
    rcases List.mem_cons.mp he with rfl | he
    · refine ⟨name, before ++ gap, opening, content, closing, rest, behind, by simp [hdoc], ?_, spelled⟩
      rw [size_append] at hlimit ⊢
      omega
    · have hdoc' : doc = before ++ (gap ++ (opening ++ (content ++ closing))) ++ (rest ++ behind) := by
        simp [hdoc]
      refine ih hdoc' ?_ e he
      simp only [size_append] at hlimit ⊢
      omega

theorem Scanned.limit_le {names : List String} {text : List Char} {limit : Nat} {found : List Element}
    (h : Scanned limit names text found) : ∀ e ∈ found, limit ≤ e.start + size text := by
  induction h with
  | done => simp
  | element gap opening content closing rest name spelled tail ih =>
    have hstart := spelled.start
    simp only [size_append] at hstart ⊢
    intro e he
    rcases List.mem_cons.mp he with rfl | he
    · omega
    · have := ih e he
      omega

theorem Scanned.pairwise {names : List String} {text : List Char} {limit : Nat} {found : List Element}
    (h : Scanned limit names text found) : found.Pairwise fun a b => a.stop ≤ b.start := by
  induction h with
  | done => exact List.Pairwise.nil
  | element gap opening content closing rest name spelled tail ih =>
    refine List.pairwise_cons.mpr ⟨fun b hb => ?_, ih⟩
    have := tail.limit_le b hb
    have := spelled.stop_add
    omega

/-- **Every element that is found stands in the document** and has one of the names. -/
theorem stands_of_mem_find {doc : List Char} {span : Span} {names : List String} {found : List Element}
    (h : find doc span names = .ok found) :
    ∀ e ∈ found, e.name ∈ names ∧ e.Stands doc (min span.stop (size doc)) := by
  unfold find at h
  simp only at h
  split at h
  · next hlt =>
    split at h
    · exact absurd h (by simp)
    · next text ht =>
      obtain ⟨before, behind, hdoc, hstart, hstop⟩ := Span.cut?_eq_some.mp (Span.text_eq_ok.mp ht)
      simp only at hstart hstop
      exact (scanned_of_scan (by omega) h).stands hdoc hstop
  · obtain rfl := Except.ok.inj h
    simp

/-- **Elements found by one search lie one behind another.** -/
theorem pairwise_of_find {doc : List Char} {span : Span} {names : List String} {found : List Element}
    (h : find doc span names = .ok found) : found.Pairwise fun a b => a.stop ≤ b.start := by
  unfold find at h
  simp only at h
  split at h
  · split at h
    · exact absurd h (by simp)
    · next text ht =>
      obtain ⟨before, behind, hdoc, hstart, hstop⟩ := Span.cut?_eq_some.mp (Span.text_eq_ok.mp ht)
      simp only at hstart hstop
      exact (scanned_of_scan (by omega) h).pairwise
  · obtain rfl := Except.ok.inj h
    exact List.Pairwise.nil

/-! ## A search that fails -/

theorem findClose_ne_misplaced (limit : Nat) (name : String) (depth : Nat) (text : List Char)
    (span : Span) : findClose limit name depth text ≠ .error (.misplaced span) := by
  fun_induction findClose limit name depth text <;> simp_all

theorem scan_ne_misplaced (limit : Nat) (names : List String) (text : List Char) (span : Span) :
    scan limit names text ≠ .error (.misplaced span) := by
  fun_induction scan limit names text with
  | case1 => simp
  | case2 _ _ _ _ ih => exact ih
  | case3 _ _ _ _ ih => exact ih
  | case4 => simp
  | case5 =>
    rename_i ih
    rw [ne_eq, exceptMap_eq_error]
    exact ih
  | case6 =>
    rename_i hx
    intro heq
    obtain rfl := Except.error.inj heq
    exact findClose_ne_misplaced _ _ _ _ span hx
  | case7 =>
    rename_i ih
    rw [ne_eq, exceptMap_eq_error]
    exact ih
  | case8 =>
    rename_i ih
    rw [ne_eq, exceptMap_eq_error]
    exact ih

/-- **A search in a span that fits fails only for what it finds**, never for where it looks. -/
theorem find_ne_misplaced {doc : List Char} {span : Span} (hfits : span.Fits doc) (names : List String)
    (other : Span) : find doc span names ≠ .error (.misplaced other) := by
  have hmin : min span.stop (size doc) = span.stop := Nat.min_eq_left hfits.stop_le_size
  unfold find
  simp only [hmin]
  obtain ⟨covered, hcovered⟩ := hfits.text_eq_ok
  split
  · rw [hcovered]
    exact scan_ne_misplaced _ _ _ _
  · simp

end DashboardMarkup.Markup
