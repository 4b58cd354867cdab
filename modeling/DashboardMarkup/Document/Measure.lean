import DashboardMarkup.Markup.Attribute
import DashboardMarkup.Number.Decimal
import DashboardMarkup.Text.Cut
import DashboardMarkup.Widget.Basic

/-!
# Numbers in attributes

Counts and lengths may have the unit `px`. A value that is no number of the kind that is due counts as
absent. A number for all widths of screen has one attribute, and one more for each width.

* `positive?_pos`: a positive count that is read is one.
* `breakpoints_pos`: with positive defaults, so are all counts for the widths of screen.
-/

namespace DashboardMarkup

namespace Measure

/-- A trimmed text without the unit `px` and the blanks before it. -/
def withoutUnit (s : String) : List Char :=
  let text := Text.trim s.toList
  Text.trim ((Text.stripSuffix? "px".toList text).getD text)

/-- A count. -/
def count? (s : String) : Option Nat :=
  Whole.count? (withoutUnit s)

/-- A count other than zero. -/
def positive? (s : String) : Option Nat :=
  (count? s).filter (0 < ·)

/-- A finite number. -/
def number? (s : String) : Option Double :=
  Double.ofText? (withoutUnit s)

theorem positive?_pos {s : String} {n : Nat} (h : positive? s = some n) : 0 < n := by
  simp only [positive?, Option.filter_eq_some_iff] at h
  simpa using h.2

end Measure

namespace Attributes

/-- A count under the first of several names that has a value. -/
def count? (attrs : Attributes) (names : List String) : Option Nat :=
  (attrs.first? names).bind Measure.count?

/-- A positive count under a name. -/
def positive? (attrs : Attributes) (name : String) : Option Nat :=
  (attrs.text? name).bind Measure.positive?

/-- A number under the first of several names that has a value. -/
def number? (attrs : Attributes) (names : List String) : Option Double :=
  (attrs.first? names).bind Measure.number?

/-- A whole number with a sign under a name. -/
def signed? (attrs : Attributes) (name : String) : Option Int :=
  (attrs.text? name).bind fun s => Whole.signed? s.toList

/-- The counts for the widths of screen: under the name with `-d`, `-t` or `-m`, else under the name
itself, else by default. -/
def breakpoints (attrs : Attributes) (name : String) (default : Breakpoints Nat) :
    Breakpoints Nat :=
  let shared := attrs.positive? name
  let at? (suffix : String) (n : Nat) := ((attrs.positive? (name ++ suffix)).or shared).getD n
  ⟨at? "-d" default.desktop, at? "-t" default.tablet, at? "-m" default.mobile⟩

/-- The gap between the columns of a row or grid. -/
def gapX? (attrs : Attributes) : Option Nat :=
  attrs.count? ["gap-x", "gapX"]

/-- The gap between the lines of a row or grid. -/
def gapY? (attrs : Attributes) : Option Nat :=
  attrs.count? ["gap-y", "gapY"]

theorem positive?_pos {attrs : Attributes} {name : String} {n : Nat}
    (h : attrs.positive? name = some n) : 0 < n := by
  simp only [positive?, Option.bind_eq_some_iff] at h
  obtain ⟨s, -, hs⟩ := h
  exact Measure.positive?_pos hs

theorem getD_pos {a b : Option Nat} {n : Nat} (ha : ∀ m, a = some m → 0 < m)
    (hb : ∀ m, b = some m → 0 < m) (hn : 0 < n) : 0 < (a.or b).getD n := by
  cases a with
  | some m => exact ha m rfl
  | none =>
    cases b with
    | some m => exact hb m rfl
    | none => exact hn

theorem breakpoints_pos (attrs : Attributes) (name : String) {default : Breakpoints Nat}
    (hd : 0 < default.desktop) (ht : 0 < default.tablet) (hm : 0 < default.mobile) :
    0 < (attrs.breakpoints name default).desktop ∧ 0 < (attrs.breakpoints name default).tablet ∧
      0 < (attrs.breakpoints name default).mobile :=
  ⟨getD_pos (fun _ => positive?_pos) (fun _ => positive?_pos) hd,
    getD_pos (fun _ => positive?_pos) (fun _ => positive?_pos) ht,
    getD_pos (fun _ => positive?_pos) (fun _ => positive?_pos) hm⟩

end Attributes

end DashboardMarkup
