import DashboardMarkup.Proofs.Style.LastToken

/-!
# Tokens that are not understood

A token that is not understood sets nothing. It leaves the styling as it is, but for one thing: if it speaks of the
bottom axis, the settings of the axis are there from then on, without any numbers. So what is made of a list of
tokens depends on those that are understood, and on whether any of the others speaks of the axis.

* `Token.understood`, `Token.understood_iff`: the tokens that set something.
* `Styling.foldl_applyToken_eq`: the tokens that are not understood can be left out, but for the axis.
* `Styling.ignored_tokens`: what they leave as it is; `Styling.ignored_token_opens_axis`: where they do not.
-/

namespace DashboardMarkup

open Text

namespace Token

variable {token : List Char}

/-- Whether a token sets something. -/
def understood (token : List Char) : Bool :=
  (read token).write.isSome

theorem understood_iff : understood token = true ↔ ∃ f v, Sets token f v := by
  unfold understood
  rw [Option.isSome_iff_exists]
  constructor
  · rintro ⟨w, hw⟩
    exact ⟨w.target, w.value, sets_iff.mpr ⟨w, hw, rfl, rfl⟩⟩
  · rintro ⟨f, v, h⟩
    obtain ⟨w, hw, -, -⟩ := sets_iff.mp h
    exact ⟨w, hw⟩

theorem write_of_not_understood (h : understood token = false) : (read token).write = none := by
  exact Option.not_isSome_iff_eq_none.mp (ne_true_of_eq_false h)

/-- Whether a token speaks of the bottom axis without setting anything. -/
def opensAxis (token : List Char) : Bool :=
  !understood token && (read token).onAxis

theorem opensAxis_iff : opensAxis token = true ↔
    (∀ f v, ¬Sets token f v) ∧ ∃ rest, Begins "axisbottom" rest token ∧ ':' ∈ rest := by
  unfold opensAxis
  rw [Bool.and_eq_true, onAxis_iff, Bool.not_eq_true', ← Bool.not_eq_true, understood_iff]
  simp only [not_exists]

end Token

namespace Styling

open Token (understood opensAxis)

variable (s : Styling)

theorem openAxis_openAxis : s.openAxis.openAxis = s.openAxis :=
  rfl

theorem openAxis_eq_self_iff : s.openAxis = s ↔ s.axisBottom.isSome = true := by
  constructor
  · intro h
    rw [← h]
    rfl
  · intro h
    exact ext_value? s.value?_openAxis h.symm

/-- What a token that is not understood does. -/
theorem applyToken_of_not_understood {token : List Char} (h : understood token = false) :
    s.applyToken token = if opensAxis token then s.openAxis else s := by
  rw [s.applyToken_of_ignored (Token.write_of_not_understood h)]
  unfold begun opensAxis
  rw [h, Bool.not_false, Bool.true_and]

/-- To make the settings of the axis present makes no difference to a token, whether it is done before or after. -/
theorem applyToken_openAxis (token : List Char) : s.openAxis.applyToken token = (s.applyToken token).openAxis := by
  refine ext_value? (fun f => ?_) ?_
  · rw [value?_applyToken, value?_openAxis, value?_openAxis, value?_applyToken]
  · rw [isSome_axisBottom_applyToken]
    exact Bool.or_true _

theorem foldl_applyToken_openAxis (tokens : List (List Char)) :
    tokens.foldl applyToken s.openAxis = (tokens.foldl applyToken s).openAxis := by
  induction tokens generalizing s with
  | nil => rfl
  | cons token tokens ih => rw [List.foldl_cons, List.foldl_cons, applyToken_openAxis, ih]

/-- **The tokens that are not understood can be left out**, but for the axis that they speak of. -/
theorem foldl_applyToken_eq (tokens : List (List Char)) :
    tokens.foldl applyToken s =
      if tokens.any opensAxis then ((tokens.filter understood).foldl applyToken s).openAxis
      else (tokens.filter understood).foldl applyToken s := by
  induction tokens generalizing s with
  | nil => rfl
  | cons token tokens ih =>
    rw [List.foldl_cons, List.any_cons]
    cases hu : understood token with
    | true =>
      have hopens : opensAxis token = false := by simp [opensAxis, hu]
      rw [List.filter_cons_of_pos hu, List.foldl_cons, hopens, Bool.false_or, ih]
    | false =>
      rw [List.filter_cons_of_neg (ne_true_of_eq_false hu), s.applyToken_of_not_understood hu]
      cases opensAxis token with
      | false => rw [if_neg Bool.false_ne_true, Bool.false_or, ih]
      | true =>
        rw [if_pos rfl, Bool.true_or, if_pos rfl, foldl_applyToken_openAxis, ih]
        split
        · rw [openAxis_openAxis]
        · rfl

/-- **What tokens that are not understood leave as it is.** A token is understood if it spells a key of a setting and
one of its values. If it is not, it changes no value, and it leaves the styling as it is unless it speaks of a bottom
axis that is not there: then it makes the settings of the axis present. A list of tokens does what those of them do
that are understood, and makes these settings present if one of the others speaks of them. -/
theorem ignored_tokens (s : Styling) :
    (∀ token, understood token = true ↔ ∃ f v, Token.Sets token f v) ∧
    (∀ token, opensAxis token = true ↔
      (∀ f v, ¬Token.Sets token f v) ∧ ∃ rest, Token.Begins "axisbottom" rest token ∧ ':' ∈ rest) ∧
    (∀ token, understood token = false →
      (∀ f, (s.applyToken token).value? f = s.value? f) ∧
      s.applyToken token = (if opensAxis token then s.openAxis else s) ∧
      (s.applyToken token = s ↔ (opensAxis token = true → s.axisBottom.isSome = true))) ∧
    ∀ tokens : String, s.applyTokens tokens =
      if (words tokens.toList).any opensAxis then
        (((words tokens.toList).filter understood).foldl applyToken s).openAxis
      else ((words tokens.toList).filter understood).foldl applyToken s := by
  refine ⟨fun _ => Token.understood_iff, fun _ => Token.opensAxis_iff, fun token hnot => ?_,
    fun tokens => s.foldl_applyToken_eq _⟩
  have heq := s.applyToken_of_not_understood hnot
  refine ⟨fun f => ?_, heq, ?_⟩
  · rw [heq]
    split
    · exact s.value?_openAxis f
    · rfl
  · rw [heq]
    split
    · next hopens => exact s.openAxis_eq_self_iff.trans ⟨fun h _ => h, fun h => h hopens⟩
    · next hopens => exact ⟨fun _ h => absurd h hopens, fun _ => rfl⟩

/-- A token for a number that an axis does not have, after one that has set another. -/
theorem ignored_tokens_spin :
    understood "axisbottom:spin:3".toList = false ∧
      (({ showLegend := some true, axisBottom := some {} } : Styling).applyToken "axisbottom:spin:3".toList =
        { showLegend := some true, axisBottom := some {} }) :=
  have hnot : understood "axisbottom:spin:3".toList = false := by decide
  ⟨hnot, ((ignored_tokens { showLegend := some true, axisBottom := some {} }).2.2.1 _ hnot).2.2.mpr fun _ => rfl⟩

/-- **A token that is not understood can leave a trace**: the settings of an axis, without any. -/
theorem ignored_token_opens_axis :
    understood "axisbottom:spin:3".toList = false ∧
      ({} : Styling).applyToken "axisbottom:spin:3".toList = { axisBottom := some {} } ∧
      ({} : Styling).applyToken "axisbottom:spin:3".toList ≠ {} ∧
      (words "axisbottom:spin:3".toList).filter understood = (words "".toList).filter understood ∧
      ({} : Styling).applyTokens "axisbottom:spin:3" ≠ ({} : Styling).applyTokens "" := by
  refine ⟨?_, ?_, ?_, ?_, ?_⟩ <;> decide

end Styling

end DashboardMarkup
