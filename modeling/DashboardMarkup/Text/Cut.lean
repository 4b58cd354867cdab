/-!
# Cutting at marks

A mark is a fixed piece of text. `cut?` splits a text around the first occurrence of a mark,
`cutAt?` around the first character of a class.

* `stripPrefix?_eq_some`: a mark is stripped exactly when the text begins with it.
* `append_of_cut?`, `append_of_cutAt?`: nothing is lost by a cut.
* `length_cut?_lt`: the second part is shorter, so a scanner may go on with it.
-/

namespace DashboardMarkup.Text

/-- What follows `mark` at the front of a text. -/
def stripPrefix? : List Char → List Char → Option (List Char)
  | [], text => some text
  | _ :: _, [] => none
  | m :: ms, c :: cs => if m == c then stripPrefix? ms cs else none

theorem stripPrefix?_eq_some {mark text rest : List Char} :
    stripPrefix? mark text = some rest ↔ text = mark ++ rest := by
  fun_induction stripPrefix? mark text with
  | case1 text => simp
  | case2 => simp
  | case3 m ms c cs h ih => simp_all
  | case4 m ms c cs h =>
    have : m ≠ c := fun e => h (beq_iff_eq.2 e)
    simp [this.symm]

theorem stripPrefix?_append (mark rest : List Char) :
    stripPrefix? mark (mark ++ rest) = some rest :=
  stripPrefix?_eq_some.2 rfl

/-- What stands before `mark` at the end of a text. -/
def stripSuffix? (mark text : List Char) : Option (List Char) :=
  (stripPrefix? mark.reverse text.reverse).map List.reverse

theorem stripSuffix?_eq_some {mark text rest : List Char} :
    stripSuffix? mark text = some rest ↔ text = rest ++ mark := by
  simp only [stripSuffix?, Option.map_eq_some_iff, stripPrefix?_eq_some]
  constructor
  · rintro ⟨r, h, rfl⟩
    simpa using congrArg List.reverse h
  · rintro rfl
    exact ⟨rest.reverse, by simp⟩

/-- The texts before and after the first occurrence of a mark. -/
def cut? (mark : List Char) : List Char → Option (List Char × List Char)
  | [] => if mark.isEmpty then some ([], []) else none
  | c :: cs =>
    match stripPrefix? mark (c :: cs) with
    | some rest => some ([], rest)
    | none => (cut? mark cs).map fun (before, after) => (c :: before, after)

theorem append_of_cut? {mark text before after : List Char}
    (h : cut? mark text = some (before, after)) : text = before ++ (mark ++ after) := by
  induction text generalizing before with
  | nil =>
    simp only [cut?, Option.ite_none_right_eq_some, Option.some.injEq, Prod.mk.injEq] at h
    obtain ⟨hm, rfl, rfl⟩ := h
    simpa using hm
  | cons c cs ih =>
    simp only [cut?] at h
    split at h
    · next rest hs =>
      simp only [Option.some.injEq, Prod.mk.injEq] at h
      obtain ⟨rfl, rfl⟩ := h
      simpa using stripPrefix?_eq_some.1 hs
    · simp only [Option.map_eq_some_iff, Prod.mk.injEq, Prod.exists] at h
      obtain ⟨b, a, hb, rfl, rfl⟩ := h
      simp [ih hb]

theorem length_cut?_lt {mark text before after : List Char} (hm : mark ≠ [])
    (h : cut? mark text = some (before, after)) : after.length < text.length := by
  have : 0 < mark.length := List.length_pos_iff.2 hm
  rw [append_of_cut? h]
  simp only [List.length_append]
  omega

/-- The texts before and after the first character that satisfies `p`. -/
def cutAt? (p : Char → Bool) : List Char → Option (List Char × List Char)
  | [] => none
  | c :: cs =>
    if p c then some ([], cs)
    else (cutAt? p cs).map fun (before, after) => (c :: before, after)

theorem append_of_cutAt? {p : Char → Bool} {text before after : List Char}
    (h : cutAt? p text = some (before, after)) :
    ∃ c, p c = true ∧ (∀ b ∈ before, p b = false) ∧ text = before ++ c :: after := by
  induction text generalizing before with
  | nil => simp [cutAt?] at h
  | cons d ds ih =>
    simp only [cutAt?] at h
    split at h
    · next hd =>
      simp only [Option.some.injEq, Prod.mk.injEq] at h
      obtain ⟨rfl, rfl⟩ := h
      exact ⟨d, hd, by simp, rfl⟩
    · next hd =>
      simp only [Option.map_eq_some_iff, Prod.mk.injEq, Prod.exists] at h
      obtain ⟨b, a, hb, rfl, rfl⟩ := h
      obtain ⟨c, hc, hall, rfl⟩ := ih hb
      exact ⟨c, hc, by simpa [hd] using hall, rfl⟩

theorem cutAt?_append {p : Char → Bool} {front rest : List Char} {c : Char}
    (hfront : ∀ x ∈ front, p x = false) (hc : p c = true) :
    cutAt? p (front ++ c :: rest) = some (front, rest) := by
  induction front with
  | nil =>
    rw [List.nil_append, cutAt?, if_pos hc]
  | cons d front ih =>
    rw [List.cons_append, cutAt?, if_neg (by simp [hfront d List.mem_cons_self]),
      ih fun x hx => hfront x (List.mem_cons_of_mem d hx)]
    rfl

theorem cutAt?_ne_none {p : Char → Bool} {text : List Char} {c : Char} (hmem : c ∈ text) (hc : p c = true) :
    cutAt? p text ≠ none := by
  induction text with
  | nil => exact absurd hmem List.not_mem_nil
  | cons d text ih =>
    rw [cutAt?]
    split
    · simp
    · next hd =>
      have hmem : c ∈ text := (List.mem_cons.mp hmem).resolve_left fun heq => hd (heq ▸ hc)
      simpa using ih hmem

theorem length_cutAt?_lt {p : Char → Bool} {text before after : List Char}
    (h : cutAt? p text = some (before, after)) : after.length < text.length := by
  obtain ⟨c, -, -, rfl⟩ := append_of_cutAt? h
  simp only [List.length_append, List.length_cons]
  omega

/-- The text between two quotes at the front of a text, if both are there, and the text after them. -/
def quoted? (quote : Char) : List Char → Option (List Char × List Char)
  | [] => none
  | c :: cs => if c == quote then cutAt? (· == quote) cs else none

theorem length_quoted?_le {quote : Char} {text value rest : List Char}
    (h : quoted? quote text = some (value, rest)) : rest.length ≤ text.length := by
  cases text with
  | nil => simp [quoted?] at h
  | cons c cs =>
    simp only [quoted?, Option.ite_none_right_eq_some] at h
    have := length_cutAt?_lt h.2
    simp only [List.length_cons]
    omega

end DashboardMarkup.Text
