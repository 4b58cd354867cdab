import DashboardMarkup.Proofs.Query.Bindings
import DashboardMarkup.Proofs.Text.Words

/-!
# Lists cut outside parentheses

Measures and dimensions are listed between the commas outside parentheses. A comma counts as outside where as many
parentheses have been closed as opened. This is so where none is open, as long as no closing parenthesis has come
too early: behind one that closes nothing the number is off by one, and a comma outside is passed over while one
inside may be cut at.

* `isCut_cons_iff`: one character of a text that is cut; `IsCut.unique`: the pieces are told by where it is cut.
* `surplus_eq`: more are opened than closed by those that are still open, less those that closed nothing.
* `isCut_topLevel`: where the reader cuts.
* `splitTopLevel_trim`: white space around a list does not matter.
* `listed_where_level`: the measures and dimensions that are read, and when they are cut outside parentheses.
-/

namespace DashboardMarkup.DataSource

open Text

theorem ne_of_isBlank {c : Char} (h : isBlank c = true) : c ≠ ',' ∧ c ≠ '(' ∧ c ≠ ')' := by
  refine ⟨?_, ?_, ?_⟩ <;> rintro rfl <;> exact absurd h (by decide)

/-! ## Texts that are cut at commas -/

/-- What stands before each comma at which some pieces meet. -/
def seams : List (List Char) → List (List Char)
  | [] => []
  | [_] => []
  | piece :: next :: pieces => piece :: (seams (next :: pieces)).map (piece ++ ',' :: ·)

/-- **The pieces are a text cut at those of its commas that stand behind certain texts**, and at no other. -/
structure IsCut (cuts : List Char → Prop) (text : List Char) (pieces : List (List Char)) : Prop where
  joined : [','].intercalate pieces = text
  ne_nil : pieces ≠ []
  mem_seams_iff : ∀ front rest, text = front ++ ',' :: rest → (front ∈ seams pieces ↔ cuts front)

variable {cuts : List Char → Prop} {text : List Char} {pieces : List (List Char)}

theorem seams_nil_cons (h : pieces ≠ []) : seams ([] :: pieces) = [] :: (seams pieces).map (',' :: ·) := by
  cases pieces with
  | nil => exact absurd rfl h
  | cons next pieces => rfl

theorem seams_modifyHead (c : Char) (pieces : List (List Char)) :
    seams (pieces.modifyHead (c :: ·)) = (seams pieces).map (c :: ·) := by
  match pieces with
  | [] => rfl
  | [_] => rfl
  | piece :: next :: pieces => simp [seams]

theorem joined_nil_cons (h : pieces ≠ []) : [','].intercalate ([] :: pieces) = ',' :: [','].intercalate pieces :=
  List.intercalate_cons_of_ne_nil h

theorem isCut_nil_iff : IsCut cuts [] pieces ↔ pieces = [[]] := by
  constructor
  · intro h
    match pieces, h with
    | [], h => exact absurd rfl h.ne_nil
    | [piece], h => simpa using h.joined
    | piece :: next :: pieces, h => simpa [List.intercalate_cons_cons] using h.joined
  · rintro rfl
    exact ⟨rfl, by simp, fun front rest h => by simp at h⟩

/-- A comma behind nothing is where the first piece ends. -/
theorem IsCut.nil_cons (hcuts : cuts []) (h : IsCut (fun front => cuts (',' :: front)) text pieces) :
    IsCut cuts (',' :: text) ([] :: pieces) where
  joined := by rw [joined_nil_cons h.ne_nil, h.joined]
  ne_nil := List.cons_ne_nil _ _
  mem_seams_iff front rest heq := by
    rw [seams_nil_cons h.ne_nil]
    cases front with
    | nil => simp [hcuts]
    | cons d front =>
      obtain ⟨rfl, htext⟩ := List.cons.inj heq
      simpa using h.mem_seams_iff front rest htext

/-- Any other character belongs to the first piece. -/
theorem IsCut.modifyHead {c : Char} (hcuts : c = ',' → ¬cuts [])
    (h : IsCut (fun front => cuts (c :: front)) text pieces) :
    IsCut cuts (c :: text) (pieces.modifyHead (c :: ·)) where
  joined := by rw [intercalate_modifyHead [','] c h.ne_nil, h.joined]
  ne_nil := by simpa using h.ne_nil
  mem_seams_iff front rest heq := by
    rw [seams_modifyHead]
    cases front with
    | nil => simpa using hcuts (List.cons.inj heq).1
    | cons d front =>
      obtain ⟨rfl, htext⟩ := List.cons.inj heq
      simpa using h.mem_seams_iff front rest htext

/-- **The pieces of a text are those of its rest**, with a piece or a character in front. -/
theorem isCut_cons_iff {c : Char} : IsCut cuts (c :: text) pieces ↔
    ∃ more, IsCut (fun front => cuts (c :: front)) text more ∧
      ((c = ',' ∧ cuts [] ∧ pieces = [] :: more) ∨
        ((c = ',' → ¬cuts []) ∧ pieces = more.modifyHead (c :: ·))) := by
  constructor
  · intro h
    match pieces, h with
    | [], h => exact absurd rfl h.ne_nil
    | (d :: piece) :: more, h =>
      -- a first piece that is not empty gives its first character back
      have hsplit : (d :: piece) :: more = (piece :: more).modifyHead (d :: ·) := rfl
      have hjoined := h.joined
      rw [hsplit, intercalate_modifyHead [','] d (List.cons_ne_nil _ _)] at hjoined
      obtain ⟨rfl, htext⟩ := List.cons.inj hjoined
      have hmem : ∀ front rest, d :: text = front ++ ',' :: rest →
          (front ∈ (seams (piece :: more)).map (d :: ·) ↔ cuts front) := fun front rest heq => by
        rw [← seams_modifyHead]
        exact h.mem_seams_iff front rest heq
      refine ⟨piece :: more, ⟨htext, List.cons_ne_nil _ _, fun front rest heq => ?_⟩, Or.inr ⟨?_, hsplit⟩⟩
      · simpa using hmem (d :: front) rest (congrArg (d :: ·) heq)
      · rintro rfl
        simpa using hmem [] text rfl
    | [[]], h => simpa using h.joined
    | [] :: next :: more, h =>
      have hne : next :: more ≠ [] := List.cons_ne_nil _ _
      have hjoined := h.joined
      rw [joined_nil_cons hne] at hjoined
      obtain ⟨rfl, htext⟩ := List.cons.inj hjoined
      have hmem : ∀ front rest, ',' :: text = front ++ ',' :: rest →
          (front ∈ [] :: (seams (next :: more)).map (',' :: ·) ↔ cuts front) := fun front rest heq => by
        rw [← seams_nil_cons hne]
        exact h.mem_seams_iff front rest heq
      refine ⟨next :: more, ⟨htext, hne, fun front rest heq => ?_⟩, Or.inl ⟨rfl, ?_, rfl⟩⟩
      · simpa using hmem (',' :: front) rest (congrArg (',' :: ·) heq)
      · simpa using hmem [] text rfl
  · rintro ⟨more, h, ⟨rfl, hcuts, rfl⟩ | ⟨hcuts, rfl⟩⟩
    · exact h.nil_cons hcuts
    · exact h.modifyHead hcuts

/-- **Pieces are told by where a text is cut.** -/
theorem IsCut.unique {other : List (List Char)} (h : IsCut cuts text pieces) (ho : IsCut cuts text other) :
    pieces = other := by
  induction text generalizing cuts pieces other with
  | nil => rw [isCut_nil_iff.mp h, isCut_nil_iff.mp ho]
  | cons c text ih =>
    obtain ⟨more, hmore, hpieces⟩ := isCut_cons_iff.mp h
    obtain ⟨more', hmore', hother⟩ := isCut_cons_iff.mp ho
    obtain rfl := ih hmore hmore'
    rcases hpieces with ⟨hc, hcuts, rfl⟩ | ⟨hcuts, rfl⟩ <;> rcases hother with ⟨hc', hcuts', rfl⟩ | ⟨hcuts', rfl⟩
    · rfl
    · exact absurd hcuts (hcuts' hc)
    · exact absurd hcuts' (hcuts hc')
    · rfl

/-- The pieces of a text that is cut at those of its commas that stand behind certain texts. -/
def cutWhere (cuts : List Char → Prop) [DecidablePred cuts] : List Char → List (List Char)
  | [] => [[]]
  | c :: text =>
    if c = ',' ∧ cuts [] then [] :: cutWhere (fun front => cuts (c :: front)) text
    else (cutWhere (fun front => cuts (c :: front)) text).modifyHead (c :: ·)

theorem isCut_cutWhere (cuts : List Char → Prop) [DecidablePred cuts] (text : List Char) :
    IsCut cuts text (cutWhere cuts text) := by
  induction text generalizing cuts with
  | nil => exact isCut_nil_iff.mpr rfl
  | cons c text ih =>
    rw [cutWhere]
    split
    · next hcut =>
      obtain ⟨rfl, hcuts⟩ := hcut
      exact (ih fun front => cuts (',' :: front)).nil_cons hcuts
    · next hcut => exact (ih fun front => cuts (c :: front)).modifyHead fun hc hcuts => hcut ⟨hc, hcuts⟩

/-! ## Parentheses without a partner -/

/-- The parentheses of a text that have no partner in it. -/
structure Unmatched where
  /-- opening ones: those that are open at the end -/
  opened : Nat := 0
  /-- closing ones: those that close nothing -/
  stray : Nat := 0

/-- Those without a partner behind one more character. -/
def Unmatched.behind (u : Unmatched) (c : Char) : Unmatched :=
  if c = '(' then { u with opened := u.opened + 1 }
  else if c = ')' then
    if u.opened = 0 then { u with stray := u.stray + 1 } else { u with opened := u.opened - 1 }
  else u

/-- The parentheses of a text that have no partner in it. -/
def unmatched (text : List Char) : Unmatched :=
  text.foldl Unmatched.behind {}

/-- By how many more parentheses are opened than closed. -/
def surplus (text : List Char) : Int :=
  text.count '(' - text.count ')'

theorem surplus_cons (c : Char) (text : List Char) :
    surplus (c :: text) = (if c = '(' then 1 else if c = ')' then -1 else 0) + surplus text := by
  unfold surplus
  rw [List.count_cons, List.count_cons]
  by_cases hopen : c = '('
  · subst hopen
    simp
    omega
  · by_cases hclose : c = ')'
    · subst hclose
      simp
      omega
    · simp [hopen, hclose]

/-- One character changes the difference between the two kinds as it changes the surplus. -/
theorem Unmatched.behind_diff (u : Unmatched) (c : Char) :
    ((u.behind c).opened : Int) - (u.behind c).stray =
      u.opened - u.stray + if c = '(' then 1 else if c = ')' then -1 else 0 := by
  unfold behind
  split
  · push_cast
    omega
  · split
    · split
      · push_cast
        omega
      · push_cast
        omega
    · omega

theorem foldl_behind_diff (text : List Char) (u : Unmatched) :
    ((text.foldl Unmatched.behind u).opened : Int) - (text.foldl Unmatched.behind u).stray =
      u.opened - u.stray + surplus text := by
  induction text generalizing u with
  | nil => simp [surplus]
  | cons c text ih =>
    rw [List.foldl_cons, ih, u.behind_diff, surplus_cons]
    omega

/-- **More are opened than closed by those that are still open, less those that closed nothing.** -/
theorem surplus_eq (text : List Char) : surplus text = (unmatched text).opened - (unmatched text).stray := by
  have hdiff := foldl_behind_diff text {}
  unfold unmatched
  dsimp only at hdiff
  omega

/-! ## Where the reader cuts -/

theorem topLevel_cons (depth : Int) (c : Char) (text : List Char) :
    topLevel depth (c :: text) =
      if c = ',' ∧ depth = 0 then [] :: topLevel depth text
      else (topLevel (depth + if c = '(' then 1 else if c = ')' then -1 else 0) text).modifyHead (c :: ·) := by
  have hdepth : (if c == '(' then depth + 1 else if c == ')' then depth - 1 else depth) =
      depth + if c = '(' then 1 else if c = ')' then -1 else 0 := by
    simp only [beq_iff_eq]
    split
    · rfl
    · split
      · rfl
      · exact (Int.add_zero depth).symm
  rw [topLevel, ← hdepth]
  simp only [Bool.and_eq_true, beq_iff_eq]

/-- **The reader cuts at the commas behind which the depth is zero.** -/
theorem isCut_topLevel (depth : Int) (text : List Char) :
    IsCut (fun front => depth + surplus front = 0) text (topLevel depth text) := by
  induction text generalizing depth with
  | nil => exact isCut_nil_iff.mpr rfl
  | cons c text ih =>
    rw [topLevel_cons]
    by_cases hcut : c = ',' ∧ depth = 0
    · obtain ⟨rfl, rfl⟩ := hcut
      rw [if_pos ⟨rfl, rfl⟩]
      refine IsCut.nil_cons (by simp [surplus]) ?_
      have hsame : (fun front => 0 + surplus (',' :: front) = 0) = fun front => 0 + surplus front = 0 := by
        funext front
        rw [surplus_cons]
        simp
      rw [hsame]
      exact ih 0
    · rw [if_neg hcut]
      refine IsCut.modifyHead (fun hc => by simpa [surplus, hc] using hcut) ?_
      have hsame : (fun front => depth + surplus (c :: front) = 0) =
          fun front => (depth + if c = '(' then 1 else if c = ')' then -1 else 0) + surplus front = 0 := by
        funext front
        rw [surplus_cons, Int.add_assoc]
      rw [hsame]
      exact ih _

/-! ## White space around a list -/

/-- White space joins the first piece. -/
theorem topLevel_blank_append {blanks : List Char} (hblank : ∀ c ∈ blanks, isBlank c = true) (depth : Int)
    (text : List Char) :
    topLevel depth (blanks ++ text) = (topLevel depth text).modifyHead (blanks ++ ·) := by
  induction blanks with
  | nil =>
    have hid : (fun piece : List Char => [] ++ piece) = id := rfl
    rw [hid, List.modifyHead_id]
    rfl
  | cons c blanks ih =>
    obtain ⟨hcomma, hopen, hclose⟩ := ne_of_isBlank (hblank c List.mem_cons_self)
    rw [List.cons_append, topLevel_cons, if_neg (fun h => hcomma h.1), if_neg hopen, if_neg hclose, Int.add_zero,
      ih fun d hd => hblank d (List.mem_cons_of_mem c hd), List.modifyHead_modifyHead]
    rfl

/-- White space joins the last piece. -/
theorem topLevel_append_blank {blanks : List Char} (hblank : ∀ c ∈ blanks, isBlank c = true) (depth : Int)
    (text : List Char) :
    ∃ front last, topLevel depth text = front ++ [last] ∧
      topLevel depth (text ++ blanks) = front ++ [last ++ blanks] := by
  induction text generalizing depth with
  | nil =>
    refine ⟨[], [], rfl, ?_⟩
    have hjoin := topLevel_blank_append hblank depth []
    rw [List.append_nil] at hjoin
    rw [List.nil_append, hjoin]
    simp [topLevel]
  | cons c text ih =>
    rw [List.cons_append, topLevel_cons, topLevel_cons]
    split
    · obtain ⟨front, last, hshort, hlong⟩ := ih depth
      exact ⟨[] :: front, last, by rw [hshort]; rfl, by rw [hlong]; rfl⟩
    · obtain ⟨front, last, hshort, hlong⟩ := ih (depth + if c = '(' then 1 else if c = ')' then -1 else 0)
      rw [hshort, hlong]
      cases front with
      | nil => exact ⟨[], c :: last, rfl, rfl⟩
      | cons piece front => exact ⟨(c :: piece) :: front, last, rfl, rfl⟩

/-- The trimmed pieces that are not blank. -/
def listed (pieces : List (List Char)) : List String :=
  ((pieces.map trim).filter (· ≠ [])).map String.ofList

theorem splitTopLevel_eq_listed (text : List Char) : splitTopLevel text = listed (topLevel 0 text) := by
  unfold splitTopLevel listed
  induction (topLevel 0 text).map trim with
  | nil => rfl
  | cons piece pieces ih =>
    by_cases hpiece : piece = []
    · subst hpiece
      rw [List.filterMap_cons_none rfl, ih, List.filter_cons_of_neg (by simp)]
    · rw [List.filterMap_cons_some (b := String.ofList piece) (by simp [nonempty?, hpiece]), ih,
        List.filter_cons_of_pos (by simpa using hpiece), List.map_cons]

/-- **White space around a list does not matter.** -/
theorem splitTopLevel_trim (text : List Char) : splitTopLevel (trim text) = splitTopLevel text := by
  obtain ⟨behind, hbehind, hblank⟩ := append_dropEndWhile isBlank (trimStart text)
  have hend : (topLevel 0 (trim text)).map trim = (topLevel 0 (trimStart text)).map trim := by
    obtain ⟨front, last, hshort, hlong⟩ := topLevel_append_blank hblank 0 (trim text)
    rw [show trimStart text = trim text ++ behind from hbehind, hshort, hlong]
    simp only [List.map_append, List.map_cons, List.map_nil, trim_append_blank hblank]
  have hstart : (topLevel 0 (trimStart text)).map trim = (topLevel 0 text).map trim := by
    have hbefore : ∀ c ∈ text.takeWhile isBlank, isBlank c = true := fun c => List.mem_takeWhile_imp
    have hjoin := topLevel_blank_append hbefore 0 (trimStart text)
    rw [show text.takeWhile isBlank ++ trimStart text = text from List.takeWhile_append_dropWhile] at hjoin
    rw [hjoin]
    cases topLevel 0 (trimStart text) with
    | nil => rfl
    | cons piece pieces => simp only [List.modifyHead_cons, List.map_cons, trim_blank_append hbefore]
  unfold splitTopLevel
  rw [hend, hstart]

/-! ## Measures and dimensions -/

/-- **Lists are cut at the commas behind which as many parentheses are closed as opened.** These are the commas
outside parentheses exactly if, behind closing ones that close nothing, no comma is outside, and none is inside just
as many as these. -/
theorem listed_where_level (ds : DataSource) (list : String) :
    ∃ pieces, IsCut (fun front => surplus front = 0) list.toList pieces ∧
      ds.bound ⟨"measures", list⟩ = { ds with measures := listed pieces } ∧
      ds.bound ⟨"dimensions", list⟩ = { ds with dimensions := listed pieces } ∧
      (IsCut (fun front => (unmatched front).opened = 0) list.toList pieces ↔
        ∀ front rest, list.toList = front ++ ',' :: rest →
          (unmatched front).stray = 0 ∨
            (unmatched front).opened ≠ 0 ∧ (unmatched front).opened ≠ (unmatched front).stray) := by
  have hcut : IsCut (fun front => surplus front = 0) list.toList (topLevel 0 list.toList) := by
    simpa only [Int.zero_add] using isCut_topLevel 0 list.toList
  have hlisted : splitTopLevel (trimmed list).toList = listed (topLevel 0 list.toList) := by
    unfold trimmed
    rw [String.toList_ofList, splitTopLevel_trim, splitTopLevel_eq_listed]
  refine ⟨_, hcut, ?_, ?_, ?_⟩
  · rw [@bound_of_slot ⟨"measures", list⟩ _ (show slot? "measures" = some .measures by decide)]
    exact congrArg (fun items => { ds with measures := items }) hlisted
  · rw [@bound_of_slot ⟨"dimensions", list⟩ _ (show slot? "dimensions" = some .dimensions by decide)]
    exact congrArg (fun items => { ds with dimensions := items }) hlisted
  · have hlevel : ∀ front, (surplus front = 0 ↔ (unmatched front).opened = 0) ↔
        (unmatched front).stray = 0 ∨
          (unmatched front).opened ≠ 0 ∧ (unmatched front).opened ≠ (unmatched front).stray := fun front => by
      rw [surplus_eq]
      omega
    constructor
    · intro h front rest heq
      exact (hlevel front).mp ((hcut.mem_seams_iff front rest heq).symm.trans (h.mem_seams_iff front rest heq))
    · intro h
      exact ⟨hcut.joined, hcut.ne_nil, fun front rest heq =>
        (hcut.mem_seams_iff front rest heq).trans ((hlevel front).mpr (h front rest heq))⟩

/-- **Behind a closing parenthesis that closes nothing, a comma outside is passed over, and one inside is cut at.** -/
theorem stray_shifts_cuts :
    (bound {} ⟨"measures", "a), b"⟩).measures = ["a), b"] ∧
      (∀ pieces, IsCut (fun front => (unmatched front).opened = 0) "a), b".toList pieces →
        listed pieces = ["a)", "b"]) ∧
      (bound {} ⟨"measures", ")(a, b"⟩).measures = [")(a", "b"] ∧
      ∀ pieces, IsCut (fun front => (unmatched front).opened = 0) ")(a, b".toList pieces →
        listed pieces = [")(a, b"] := by
  refine ⟨by decide, fun pieces h => ?_, by decide, fun pieces h => ?_⟩
  · rw [h.unique (isCut_cutWhere _ _)]
    decide
  · rw [h.unique (isCut_cutWhere _ _)]
    decide

end DashboardMarkup.DataSource
