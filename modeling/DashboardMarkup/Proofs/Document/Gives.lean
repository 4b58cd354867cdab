import DashboardMarkup.Document.Reading
import Mathlib.Data.List.Forall2

/-!
# The value of a reading

Notes refer to offsets, and so do not outlast an edit of the document. `Reading.Gives` says what value a
reading gives, whatever it notes on the way.

* `Gives.unique`: there is only one.
* `Gives.mapM`, `Gives.foldlM`: a list that is read member by member gives what its members give.
-/

namespace DashboardMarkup.Reading

variable {α β : Type}

/-- A reading gives a value, with some notes or none. -/
def Gives (x : Reading α) (a : α) : Prop :=
  ∃ notes, x = .ok (a, notes)

theorem Gives.unique {x : Reading α} {a b : α} (ha : x.Gives a) (hb : x.Gives b) : a = b := by
  obtain ⟨first, rfl⟩ := ha
  obtain ⟨second, h⟩ := hb
  exact (Prod.mk.inj (Except.ok.inj h)).1

theorem gives_pure (a : α) : (pure a : Reading α).Gives a :=
  ⟨[], rfl⟩

theorem Gives.bind {x : Reading α} {f : α → Reading β} {a : α} {b : β} (hx : x.Gives a)
    (hf : (f a).Gives b) : (x >>= f).Gives b := by
  obtain ⟨first, hx⟩ := hx
  obtain ⟨second, hf⟩ := hf
  exact ⟨first ++ second, bind_eq_ok.mpr ⟨a, first, second, hx, hf, rfl⟩⟩

/-- What follows on a value that has no notes to add. -/
theorem Gives.map {x : Reading α} {a : α} (hx : x.Gives a) (f : α → β) :
    (x >>= fun a => pure (f a)).Gives (f a) :=
  hx.bind (gives_pure (f a))

theorem gives_note (cause : Cause) (offset : Nat) : (note cause offset).Gives () :=
  ⟨_, rfl⟩

/-- What is found without notes is given. -/
theorem gives_of_ok {x : Except Fault α} {a : α} (h : x = .ok a) : (liftM x : Reading α).Gives a :=
  ⟨[], by rw [h]; rfl⟩

theorem Gives.eq_ok {x : Except Fault α} {a : α} (h : (liftM x : Reading α).Gives a) : x = .ok a := by
  cases x with
  | error fault =>
    obtain ⟨notes, h⟩ := h
    cases h
  | ok b => rw [(gives_of_ok rfl).unique h]

/-- A reading that gives a value does not stop before. -/
theorem exists_of_bind {x : Reading α} {f : α → Reading β} {b : β} (h : (x >>= f).Gives b) :
    ∃ a, x.Gives a ∧ (f a).Gives b := by
  obtain ⟨notes, h⟩ := h
  obtain ⟨a, first, second, hx, hf, -⟩ := bind_eq_ok.mp h
  exact ⟨a, ⟨first, hx⟩, ⟨second, hf⟩⟩

/-- **A list that is read member by member gives what its members give.** -/
theorem Gives.mapM {f : α → Reading β} {as : List α} {bs : List β}
    (h : List.Forall₂ (fun b a => (f a).Gives b) bs as) : (as.mapM f).Gives bs := by
  induction h with
  | nil => exact gives_pure []
  | @cons b a bs as hb _ ih =>
    rw [List.mapM_cons]
    exact hb.bind (ih.map (b :: ·))

/-- Its members give what it gives. -/
theorem Gives.forall₂ {f : α → Reading β} {as : List α} {bs : List β} (h : (as.mapM f).Gives bs) :
    List.Forall₂ (fun a b => (f a).Gives b) as bs := by
  induction as generalizing bs with
  | nil =>
    obtain ⟨notes, h⟩ := h
    obtain ⟨rfl, -⟩ := mapM_eq_ok_nil.mp h
    exact .nil
  | cons a as ih =>
    obtain ⟨notes, h⟩ := h
    obtain ⟨b, first, rest, second, hb, hrest, rfl, -⟩ := mapM_eq_ok_cons.mp h
    exact .cons ⟨first, hb⟩ (ih ⟨second, hrest⟩)

/-- Likewise a value that is changed by one member after another. -/
theorem Gives.foldlM {γ : Type} {f : β → α → Reading β} {step : β → γ → β} {as : List α} {cs : List γ}
    (h : List.Forall₂ (fun c a => ∀ b, (f b a).Gives (step b c)) cs as) (b : β) :
    (as.foldlM f b).Gives (cs.foldl step b) := by
  induction h generalizing b with
  | nil => exact gives_pure b
  | @cons c a cs as ha _ ih =>
    rw [List.foldlM_cons]
    exact (ha b).bind (ih (step b c))

end DashboardMarkup.Reading
