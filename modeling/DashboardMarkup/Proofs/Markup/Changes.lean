import DashboardMarkup.Proofs.Markup.Rendered

/-!
# Changes to attributes

An attribute list is changed by one change after another, and each change is about one name.

* `get?_applyAll_set`: of the values that a name is given the last one is found, unless the name is dropped later.
* `mem_applyAll`: what is in the list in the end was there before or has been set.
* `besides_applyAll`: the attributes of other names keep their values and their order, repetitions included.
-/

namespace DashboardMarkup.Attributes

open Markup

/-- The name that a change is about. -/
def Change.name : Change → String
  | set name _ => name
  | drop name => name

/-- The attributes of other names than some. -/
def besides (attrs : Attributes) (names : List String) : Attributes :=
  attrs.filter fun a => !names.contains a.name

variable {attrs : Attributes} {name value : String} {changes : List Change}

theorem applyAll_cons (attrs : Attributes) (c : Change) (changes : List Change) :
    attrs.applyAll (c :: changes) = (attrs.apply c).applyAll changes :=
  rfl

theorem applyAll_append (attrs : Attributes) (first second : List Change) :
    attrs.applyAll (first ++ second) = (attrs.applyAll first).applyAll second :=
  List.foldl_append

/-! ## What a name is found to say -/

theorem get?_drop_of_ne (attrs : Attributes) {other : String} (hne : other ≠ name) :
    (attrs.drop name).get? other = attrs.get? other := by
  unfold get? drop
  rw [List.find?_filter]
  congr 2
  funext a
  by_cases heq : a.name = other
  · simp [heq, hne]
  · simp [heq]

theorem get?_apply_of_ne {c : Change} (h : c.name ≠ name) : (attrs.apply c).get? name = attrs.get? name := by
  cases c with
  | set other value => exact get?_set_of_ne attrs value h.symm
  | drop other => exact get?_drop_of_ne attrs h.symm

/-- Changes about other names leave what a name says. -/
theorem get?_applyAll_of_ne (h : ∀ c ∈ changes, c.name ≠ name) :
    (attrs.applyAll changes).get? name = attrs.get? name := by
  induction changes generalizing attrs with
  | nil => rfl
  | cons c changes ih =>
    obtain ⟨hc, hchanges⟩ := List.forall_mem_cons.mp h
    rw [applyAll_cons, ih hchanges, get?_apply_of_ne hc]

/-- **The value that a name is given is found**, if no later change is about the name. -/
theorem get?_applyAll_set (attrs : Attributes) (first : List Change) {later : List Change}
    (h : ∀ c ∈ later, c.name ≠ name) :
    (attrs.applyAll (first ++ .set name value :: later)).get? name = some value := by
  rw [applyAll_append, applyAll_cons, get?_applyAll_of_ne h]
  exact get?_set _ name value

/-! ## What is in the list -/

theorem mem_apply {c : Change} {a : Attribute} (h : a ∈ attrs.apply c) :
    a ∈ attrs ∨ c = .set a.name a.value := by
  cases c with
  | set name value =>
    rcases mem_set h with rfl | h
    · exact Or.inr rfl
    · exact Or.inl h
  | drop name => exact Or.inl (List.mem_filter.mp h).1

/-- **What is in the list in the end** was there before or has been set. -/
theorem mem_applyAll {a : Attribute} (h : a ∈ attrs.applyAll changes) :
    a ∈ attrs ∨ .set a.name a.value ∈ changes := by
  induction changes generalizing attrs with
  | nil => exact Or.inl h
  | cons c changes ih =>
    rcases ih h with h | h
    · rcases mem_apply h with h | h
      · exact Or.inl h
      · exact Or.inr (List.mem_cons.mpr (Or.inl h.symm))
    · exact Or.inr (List.mem_cons_of_mem c h)

/-! ## What stays -/

theorem besides_set {names : List String} (h : name ∈ names) :
    (attrs.set name value).besides names = attrs.besides names := by
  unfold besides
  induction attrs with
  | nil => simp [set, h]
  | cons a attrs ih =>
    rw [set]
    split
    · next heq => simp [heq, h]
    · rw [List.filter_cons, List.filter_cons, ih]

theorem besides_drop {names : List String} (h : name ∈ names) :
    (attrs.drop name).besides names = attrs.besides names := by
  unfold besides drop
  rw [List.filter_filter]
  refine List.filter_congr fun a _ => ?_
  by_cases heq : a.name = name
  · simp [heq, h]
  · simp [heq]

/-- **The attributes of other names stay**, with their values and in their order. -/
theorem besides_applyAll {names : List String} (h : ∀ c ∈ changes, c.name ∈ names) :
    (attrs.applyAll changes).besides names = attrs.besides names := by
  induction changes generalizing attrs with
  | nil => rfl
  | cons c changes ih =>
    obtain ⟨hc, hchanges⟩ := List.forall_mem_cons.mp h
    rw [applyAll_cons, ih hchanges]
    cases c with
    | set name value => exact besides_set hc
    | drop name => exact besides_drop hc

end DashboardMarkup.Attributes
