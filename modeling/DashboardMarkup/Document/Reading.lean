import DashboardMarkup.Document.Problem

/-!
# Readings

A reading of a part of a document gives a value and the notes made on the way, in order, or stops with
a fault. Readings follow one another: the notes of the first come before those of the second, and a
fault ends all.

* `bind_eq_ok`: what a reading made of two readings gives.
* `mapM_eq_ok_cons`: what a reading of each member of a list gives.
-/

namespace DashboardMarkup

/-- A value read with some notes, or a fault. -/
def Reading (α : Type) : Type :=
  Except Fault (α × List Note)

namespace Reading

variable {α β : Type}

/-- A value without notes. -/
def ofValue (a : α) : Reading α :=
  .ok (a, [])

/-- A reading and a second one that depends on its value. -/
def andThen (x : Reading α) (f : α → Reading β) : Reading β :=
  match x with
  | .error fault => .error fault
  | .ok (a, notes) =>
    match f a with
    | .error fault => .error fault
    | .ok (b, more) => .ok (b, notes ++ more)

instance : Monad Reading where
  pure := ofValue
  bind := andThen

theorem andThen_ofValue (x : Reading α) (g : α → β) :
    x.andThen (fun a => ofValue (g a)) = Except.map (fun (a, notes) => (g a, notes)) x := by
  cases x with
  | error fault => rfl
  | ok found =>
    show Except.ok (g found.1, found.2 ++ []) = _
    rw [List.append_nil]
    rfl

theorem andThen_assoc {γ : Type} (x : Reading α) (f : α → Reading β) (g : β → Reading γ) :
    (x.andThen f).andThen g = x.andThen fun a => (f a).andThen g := by
  cases x with
  | error fault => rfl
  | ok found =>
    simp only [andThen]
    cases f found.1 with
    | error fault => rfl
    | ok next =>
      cases hg : g next.1 with
      | error fault =>
        simp only [hg]
        rfl
      | ok last =>
        simp only [hg, List.append_assoc]
        rfl

instance : LawfulMonad Reading := LawfulMonad.mk' Reading
  (fun x => by
    refine (andThen_ofValue x id).trans ?_
    cases x <;> rfl)
  (fun a f => by
    show (ofValue a).andThen f = f a
    simp only [andThen, ofValue]
    cases f a <;> rfl)
  (fun x f g => andThen_assoc x f g)

/-- Text and elements are found without notes. -/
def ofExcept : Except Fault α → Reading α
  | .error fault => .error fault
  | .ok a => .ok (a, [])

instance : MonadLift (Except Fault) Reading where
  monadLift := ofExcept

/-- Makes a note. -/
def note (cause : Cause) (offset : Nat) : Reading Unit :=
  .ok ((), [⟨cause, offset⟩])

/-- Stops with a fault. -/
def stop (fault : Fault) : Reading α :=
  .error fault

theorem pure_eq_ok {a b : α} {notes : List Note} :
    (pure a : Reading α) = .ok (b, notes) ↔ a = b ∧ notes = [] := by
  constructor
  · intro h
    cases h
    exact ⟨rfl, rfl⟩
  · rintro ⟨rfl, rfl⟩
    rfl

theorem bind_eq_ok {x : Reading α} {f : α → Reading β} {b : β} {notes : List Note} :
    (x >>= f) = .ok (b, notes) ↔
      ∃ a first second, x = .ok (a, first) ∧ f a = .ok (b, second) ∧ notes = first ++ second := by
  simp only [bind, andThen]
  constructor
  · intro h
    split at h
    · cases h
    · next a first =>
      split at h
      · cases h
      · next c second hf =>
        cases h
        exact ⟨a, first, second, rfl, hf, rfl⟩
  · rintro ⟨a, first, second, rfl, hf, rfl⟩
    simp only [hf]
    rfl

theorem mapM_eq_ok_nil {f : α → Reading β} {bs : List β} {notes : List Note} :
    ([] : List α).mapM f = (.ok (bs, notes) : Reading (List β)) ↔ bs = [] ∧ notes = [] := by
  rw [List.mapM_nil, pure_eq_ok]
  exact and_congr_left fun _ => eq_comm

theorem mapM_eq_ok_cons {f : α → Reading β} {a : α} {as : List α} {bs : List β}
    {notes : List Note} :
    (a :: as).mapM f = (.ok (bs, notes) : Reading (List β)) ↔
      ∃ b first rest second, f a = .ok (b, first) ∧
        as.mapM f = (.ok (rest, second) : Reading (List β)) ∧
        bs = b :: rest ∧ notes = first ++ second := by
  rw [List.mapM_cons]
  simp only [bind_eq_ok, pure_eq_ok]
  constructor
  · rintro ⟨b, first, _, hb, ⟨rest, second, _, hr, ⟨rfl, rfl⟩, rfl⟩, rfl⟩
    exact ⟨b, first, rest, second, hb, hr, rfl, by simp⟩
  · rintro ⟨b, first, rest, second, hb, hr, rfl, rfl⟩
    exact ⟨b, first, second, hb, ⟨rest, second, [], hr, ⟨rfl, rfl⟩, by simp⟩, rfl⟩

end Reading

end DashboardMarkup
