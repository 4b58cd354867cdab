import DashboardMarkup.Markup.Element

/-!
# Where found elements lie

* `suffix_findClose`, `suffix_opening?` and their like: a scanner goes on with an end of its text.
* `within_of_mem_find`: an element that is found lies in the span it was looked for in, with its parts
  in order. So a search inside its content is a search inside a smaller span.
-/

namespace DashboardMarkup

namespace Text

theorem size_le_of_suffix {rest text : List Char} (h : rest <:+ text) : size rest ≤ size text := by
  obtain ⟨front, rfl⟩ := h
  simp

theorem size_lt_of_suffix {rest text : List Char} (h : rest <:+ text)
    (hl : rest.length < text.length) : size rest < size text := by
  obtain ⟨front, rfl⟩ := h
  have : front ≠ [] := by
    rintro rfl
    simp at hl
  have := mt size_eq_zero.1 this
  simp only [size_append]
  omega

theorem suffix_cut? {mark text before rest : List Char} (h : cut? mark text = some (before, rest)) :
    rest <:+ text :=
  ⟨before ++ mark, by rw [append_of_cut? h, List.append_assoc]⟩

theorem suffix_stripPrefix? {mark text rest : List Char} (h : stripPrefix? mark text = some rest) :
    rest <:+ text :=
  ⟨mark, (stripPrefix?_eq_some.1 h).symm⟩

end Text

namespace Markup

open Text

theorem suffix_comment? {text rest : List Char} (h : comment? text = some rest) :
    rest <:+ text := by
  simp only [comment?, Option.map_eq_some_iff] at h
  obtain ⟨body, hb, h⟩ := h
  split at h
  · next hc =>
    subst h
    exact (suffix_cut? hc).trans (suffix_stripPrefix? hb)
  · subst h
    exact List.nil_suffix

theorem suffix_named? {name : String} {text rest : List Char} (h : named? name text = some rest) :
    rest <:+ text := by
  simp only [named?, Option.filter_eq_some_iff] at h
  obtain ⟨found, rfl, -⟩ := append_of_stripWord? h.1
  exact List.suffix_append _ _

theorem suffix_opening? {names : List String} {name : String} {text rest : List Char}
    (h : opening? names text = some (name, rest)) : rest <:+ text := by
  simp only [opening?] at h
  split at h
  · obtain ⟨n, -, hn⟩ := List.exists_of_findSome?_eq_some h
    simp only [Option.map_eq_some_iff, Prod.mk.injEq] at hn
    obtain ⟨r, hr, -, rfl⟩ := hn
    exact (suffix_named? hr).trans (List.suffix_cons _ _)
  · simp at h

theorem suffix_finish? {text rest : List Char} {tag : OpenTag} (h : finish? text = some (tag, rest)) :
    rest <:+ text := by
  simp only [finish?, Option.map_eq_some_iff, Prod.mk.injEq, Prod.exists] at h
  obtain ⟨body, r, hc, -, rfl⟩ := h
  exact ⟨body ++ ['>'], by rw [append_of_cutTag? hc, List.append_assoc, List.singleton_append]⟩

theorem suffix_behindTag (text : List Char) : behindTag text <:+ text := by
  simp only [behindTag]
  split
  · next h =>
    obtain ⟨c, -, -, rfl⟩ := append_of_cutAt? h
    exact (List.suffix_cons _ _).trans (List.suffix_append _ _)
  · exact List.nil_suffix

theorem suffix_findClose {limit : Nat} {name : String} {depth : Nat} {text close rest : List Char}
    (h : findClose limit name depth text = .ok (some (close, rest))) :
    rest <:+ close ∧ close <:+ text := by
  fun_induction findClose limit name depth text with
  | case1 => simp at h
  | case2 depth c cs r hc ih => exact ⟨(ih h).1, (ih h).2.trans (suffix_comment? hc)⟩
  | case3 c cs hc r hr =>
    simp only [Except.ok.injEq, Option.some.injEq, Prod.mk.injEq] at h
    obtain ⟨rfl, rfl⟩ := h
    exact ⟨suffix_behindTag _, List.suffix_refl _⟩
  | case4 c cs hc r hr depth ih => exact ⟨(ih h).1, (ih h).2.trans (suffix_behindTag _)⟩
  | case5 => simp at h
  | case6 depth c cs hc hx n tail ho tag r hf ih =>
    exact ⟨(ih h).1, (ih h).2.trans ((suffix_finish? hf).trans (suffix_opening? ho))⟩
  | case7 depth c cs hc hx ho ih => exact ⟨(ih h).1, (ih h).2.trans (List.suffix_cons _ _)⟩

/-- An element that lies in a span, its parts in order. -/
structure Element.Within (e : Element) (span : Span) : Prop where
  start_le : span.start ≤ e.start
  start_lt_openEnd : e.start < e.openEnd
  openEnd_le_stop : e.openEnd ≤ e.stop
  stop_le : e.stop ≤ span.stop
  inner_start : ∀ inner, e.inner? = some inner → inner.start = e.openEnd
  inner_le : ∀ inner, e.inner? = some inner → inner.start ≤ inner.stop
  inner_stop_lt : ∀ inner, e.inner? = some inner → inner.stop < e.stop

theorem Element.Within.mono {e : Element} {a b : Span} (h : e.Within a) (hstart : b.start ≤ a.start)
    (hstop : a.stop ≤ b.stop) : e.Within b :=
  { h with
    start_le := Nat.le_trans hstart h.start_le
    stop_le := Nat.le_trans h.stop_le hstop }

theorem exceptMap_eq_ok {ε α β : Type} {f : α → β} {x : Except ε α} {b : β} :
    x.map f = .ok b ↔ ∃ a, x = .ok a ∧ f a = b := by
  cases x <;> simp [Except.map]

theorem exceptMap_eq_error {ε α β : Type} {f : α → β} {x : Except ε α} {e : ε} :
    x.map f = .error e ↔ x = .error e := by
  cases x <;> simp [Except.map]

theorem within_of_mem_scan {limit : Nat} {names : List String} {text : List Char}
    {found : List Element} (h : scan limit names text = .ok found) (hsize : size text ≤ limit) :
    ∀ e ∈ found, e.Within ⟨limit - size text, limit⟩ := by
  fun_induction scan limit names text generalizing found with
  | case1 =>
    simp only [Except.ok.injEq] at h
    simp [← h]
  | case2 c cs r hc ih =>
    have hs := size_le_of_suffix (suffix_comment? hc)
    exact fun e he => (ih h (by omega) e he).mono (Nat.sub_le_sub_left hs limit) (Nat.le_refl _)
  | case3 c cs hc ho ih =>
    have hs := size_le_of_suffix (List.suffix_cons c cs)
    exact fun e he => (ih h (by omega) e he).mono (Nat.sub_le_sub_left hs limit) (Nat.le_refl _)
  | case4 => simp at h
  | case5 =>
    rename_i c cs hc name tail ho start tag rest hf openEnd hself ih
    obtain ⟨more, hmore, rfl⟩ := exceptMap_eq_ok.1 h
    have hs := size_lt_of_suffix ((suffix_finish? hf).trans (suffix_opening? ho))
      (Nat.lt_trans (length_finish?_lt hf) (length_opening?_lt ho))
    intro e he
    rcases List.mem_cons.1 he with rfl | he
    · constructor <;> simp only [Element.inner?, Element.stop, start, openEnd] <;> grind
    · exact (ih hmore (by omega) e he).mono (Nat.sub_le_sub_left (Nat.le_of_lt hs) limit)
        (Nat.le_refl _)
  | case6 => simp at h
  | case7 =>
    rename_i c cs hc name tail ho start tag rest hf openEnd hself hx ih
    obtain ⟨more, hmore, rfl⟩ := exceptMap_eq_ok.1 h
    have hs := size_lt_of_suffix ((suffix_finish? hf).trans (suffix_opening? ho))
      (Nat.lt_trans (length_finish?_lt hf) (length_opening?_lt ho))
    intro e he
    rcases List.mem_cons.1 he with rfl | he
    · constructor <;> simp only [Element.inner?, Element.stop, start, openEnd] <;> grind
    · exact (ih hmore (by omega) e he).mono (Nat.sub_le_sub_left (Nat.le_of_lt hs) limit)
        (Nat.le_refl _)
  | case8 =>
    rename_i c cs hc name tail ho start tag rest hf openEnd hself close behind hx ih
    obtain ⟨more, hmore, rfl⟩ := exceptMap_eq_ok.1 h
    have hs := size_lt_of_suffix ((suffix_finish? hf).trans (suffix_opening? ho))
      (Nat.lt_trans (length_finish?_lt hf) (length_opening?_lt ho))
    have hclose := size_le_of_suffix (suffix_findClose hx).2
    have hbehind := size_lt_of_suffix (suffix_findClose hx).1 (length_findClose hx).1
    intro e he
    rcases List.mem_cons.1 he with rfl | he
    · constructor <;> simp only [Element.inner?, Element.stop, start, openEnd] <;> grind
    · exact (ih hmore (by omega) e he).mono
        (Nat.sub_le_sub_left (by omega : size behind ≤ size (c :: cs)) limit) (Nat.le_refl _)

theorem within_of_mem_find {doc : List Char} {span : Span} {names : List String}
    {found : List Element} (h : find doc span names = .ok found) :
    ∀ e ∈ found, e.Within span := by
  simp only [find] at h
  split at h
  · next hlt =>
    split at h
    · simp at h
    · next text ht =>
      simp only [Span.text] at ht
      split at ht
      · next covered hc =>
        simp only [Except.ok.injEq] at ht
        subst ht
        have hsize : size covered = min span.stop (size doc) - span.start := by
          simp only [Span.cut?, Option.bind_eq_bind, Option.bind_eq_some_iff, Prod.exists] at hc
          obtain ⟨_, rest, -, hc⟩ := hc
          split at hc
          · simp at hc
          · simp only [Option.bind_eq_some_iff, Prod.exists, Option.pure_def,
              Option.some.injEq] at hc
            obtain ⟨covered', _, hsplit, rfl⟩ := hc
            exact (append_of_splitBytes? hsplit).2
        intro e he
        exact (within_of_mem_scan h (by omega) e he).mono (by simp only; omega)
          (Nat.min_le_left _ _)
      · simp at ht
  · simp only [Except.ok.injEq] at h
    simp [← h]

end Markup

end DashboardMarkup
