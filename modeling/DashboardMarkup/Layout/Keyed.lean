/-!
# Keyed lists

A list of values with distinct keys, in the order in which the keys came up first. Setting a key again
keeps its place.

* `find?_insert_self`, `find?_insert_of_ne`: what a key finds after an insertion.
* `keys_insert`: only a new key changes the keys, and it comes last.
* `has_iff`: the keys are what has a value.
-/

namespace DashboardMarkup

/-- Values with distinct keys, in order. -/
abbrev Keyed (α : Type) := List (String × α)

namespace Keyed

variable {α : Type}

/-- The keys in order. -/
def keys (entries : Keyed α) : List String :=
  entries.map Prod.fst

/-- The value of a key. -/
def find? (entries : Keyed α) (key : String) : Option α :=
  List.lookup key entries

/-- Whether a key has a value. -/
def has (entries : Keyed α) (key : String) : Bool :=
  (entries.find? key).isSome

/-- Gives a key a value, in the place of the key or at the end. -/
def insert (entries : Keyed α) (key : String) (a : α) : Keyed α :=
  match entries with
  | [] => [(key, a)]
  | (k, b) :: rest => if k = key then (key, a) :: rest else (k, b) :: insert rest key a

theorem has_iff {entries : Keyed α} {key : String} : entries.has key = true ↔ key ∈ entries.keys := by
  induction entries with
  | nil => simp [has, find?, keys]
  | cons e rest ih =>
    obtain ⟨k, a⟩ := e
    unfold has find? keys at ih ⊢
    rw [List.lookup_cons, List.map_cons, List.mem_cons]
    by_cases hk : key = k
    · simp [hk]
    · have hne : (key == k) = false := by simpa using hk
      rw [hne, or_iff_right hk]
      exact ih

theorem find?_insert_self (entries : Keyed α) (key : String) (a : α) :
    (entries.insert key a).find? key = some a := by
  induction entries with
  | nil => simp [insert, find?]
  | cons e rest ih =>
    obtain ⟨k, b⟩ := e
    simp only [insert]
    split
    · simp [find?]
    · next hk =>
      have : (key == k) = false := by simpa using Ne.symm hk
      simpa [find?, List.lookup_cons, this] using ih

theorem find?_insert_of_ne (entries : Keyed α) {key other : String} (a : α) (h : other ≠ key) :
    (entries.insert key a).find? other = entries.find? other := by
  have hk : (other == key) = false := by simpa using h
  induction entries with
  | nil => simp [insert, find?, List.lookup_cons, hk]
  | cons e rest ih =>
    obtain ⟨k, b⟩ := e
    simp only [insert]
    split
    · next heq => simp [find?, List.lookup_cons, hk, heq]
    · simp only [find?, List.lookup_cons]
      split
      · rfl
      · exact ih

theorem keys_insert (entries : Keyed α) (key : String) (a : α) :
    (entries.insert key a).keys = if key ∈ entries.keys then entries.keys else entries.keys ++ [key] := by
  induction entries with
  | nil => simp [insert, keys]
  | cons e rest ih =>
    obtain ⟨k, b⟩ := e
    simp only [insert]
    split
    · next h => simp [keys, h]
    · next h =>
      have hne : key ≠ k := Ne.symm h
      simp only [keys, List.map_cons, List.mem_cons, hne, false_or] at ih ⊢
      rw [ih]
      split <;> simp [*]

end Keyed

end DashboardMarkup
