import DashboardMarkup.Json.Value
import Mathlib.Data.List.Sort

/-!
# Objects as maps

An object with free keys is a map from keys to values, kept as a list in the order of its keys. What matters of it is
what each key reads: sorted objects that read alike are the same, and the object that is laid over another one is read
first.

* `Object.Sorted`: in the order of its keys, each key once.
* `Object.Sorted.ext`: sorted objects that read alike are the same.
* `Object.find?_overlay`, `Object.find?_ofMembers`: what is read of the results.
-/

namespace DashboardMarkup.Json

theorem find?_append (a b : Object) (key : String) : (a ++ b).find? key = (a.find? key).or (b.find? key) := by
  unfold Object.find?
  exact List.lookup_append

theorem find?_field? {α : Type} (name key : String) (encode : α → Json) (value : Option α) :
    (field? name encode value).find? key = if key = name then value.map encode else none := by
  unfold Object.find?
  cases value with
  | none => simp [field?]
  | some a =>
    by_cases h : key = name
    · simp [field?, h]
    · simp [field?, List.lookup_cons, beq_eq_false_iff_ne.mpr h, h]

theorem nodup_field? {α : Type} (name : String) (encode : α → Json) (value : Option α) :
    ((field? name encode value).map Prod.fst).Nodup := by
  cases value <;> simp [field?]

namespace Object

/-- An object in the order of its keys, each of which it has once. -/
def Sorted (o : Object) : Prop :=
  o.Pairwise fun m n => m.1 < n.1

instance (o : Object) : Decidable o.Sorted :=
  inferInstanceAs (Decidable (o.Pairwise fun m n => m.1 < n.1))

variable {o p : Object} {key other : String} {v : Json}

/-! ## Reading -/

theorem find?_cons (key other : String) (v : Json) (o : Object) :
    find? ((key, v) :: o) other = if other = key then some v else o.find? other := by
  unfold find?
  by_cases h : other = key
  · simp [h]
  · simp [List.lookup_cons, beq_eq_false_iff_ne.mpr h, h]

/-- What is read is there. -/
theorem mem_of_find? (h : o.find? key = some v) : (key, v) ∈ o := by
  induction o with
  | nil => cases h
  | cons m o ih =>
    rw [find?_cons] at h
    split at h
    · next heq =>
      obtain rfl := Option.some.inj h
      exact heq ▸ List.mem_cons_self
    · exact List.mem_cons_of_mem m (ih h)

/-- What is there is read, if its key is there only once. -/
theorem mem_iff (h : (o.map Prod.fst).Nodup) (m : String × Json) : m ∈ o ↔ o.find? m.1 = some m.2 := by
  refine ⟨fun hmem => ?_, mem_of_find?⟩
  induction o with
  | nil => cases hmem
  | cons n o ih =>
    obtain ⟨hn, hnodup⟩ := List.nodup_cons.mp h
    rw [find?_cons]
    rcases List.mem_cons.mp hmem with rfl | hmem
    · exact if_pos rfl
    · have hne : m.1 ≠ n.1 := fun heq => hn (heq ▸ List.mem_map_of_mem hmem)
      rw [if_neg hne]
      exact ih hnodup hmem

theorem find?_eq_none (h : key ∉ o.map Prod.fst) : o.find? key = none := by
  cases hfind : o.find? key with
  | none => rfl
  | some v => exact absurd (List.mem_map_of_mem (mem_of_find? hfind)) h

theorem find?_insert (o : Object) (key other : String) (v : Json) :
    (o.insert key v).find? other = if other = key then some v else o.find? other := by
  split
  · next h =>
    rw [h]
    exact o.find?_insert_self key v
  · next h => exact o.find?_insert_of_ne v h

/-- Members that are picked by their keys. -/
theorem find?_filter (o : Object) (keep : String → Bool) (key : String) :
    find? (o.filter fun m => keep m.1) key = if keep key then o.find? key else none := by
  induction o with
  | nil => exact (ite_self none).symm
  | cons m o ih =>
    obtain ⟨name, v⟩ := m
    rw [List.filter_cons, find?_cons]
    by_cases heq : key = name
    · subst heq
      split
      · rw [find?_cons, if_pos rfl, if_pos rfl]
      · next hdropped => rw [ih, if_neg hdropped]
    · rw [if_neg heq, ← ih]
      split
      · rw [find?_cons, if_neg heq]
      · rfl

theorem erase_erase (o : Object) (gone gone' : String) :
    (o.erase gone).erase gone' = o.filter fun m => !(m.1 == gone || m.1 == gone') := by
  refine List.filter_filter.trans (List.filter_congr fun m _ => ?_)
  rw [Bool.not_or]
  exact Bool.and_comm _ _

/-! ## Laying one object over another -/

/-- **What lies above is read first.** -/
theorem find?_overlay (o p : Object) (key : String) :
    (o.overlay p).find? key = ((ofMembers p).find? key).or (o.find? key) := by
  induction p generalizing o with
  | nil => rfl
  | cons m p ih =>
    obtain ⟨name, v⟩ := m
    calc (o.overlay ((name, v) :: p)).find? key
        = ((o.insert name v).overlay p).find? key := rfl
      _ = ((ofMembers p).find? key).or ((o.insert name v).find? key) := ih _
      _ = ((ofMembers p).find? key).or (((insert [] name v).find? key).or (o.find? key)) := by
        rw [find?_insert, find?_insert]
        split <;> rfl
      _ = (((insert [] name v).overlay p).find? key).or (o.find? key) := by rw [← Option.or_assoc, ← ih]
      _ = ((ofMembers ((name, v) :: p)).find? key).or (o.find? key) := rfl

theorem find?_ofMembers_append (o p : Object) (key : String) :
    (ofMembers (o ++ p)).find? key = ((ofMembers p).find? key).or ((ofMembers o).find? key) := by
  rw [← find?_overlay]
  exact congrArg (find? · key) List.foldl_append

/-- Of keys that are all different each reads what it was given. -/
theorem find?_ofMembers (h : (o.map Prod.fst).Nodup) (key : String) : (ofMembers o).find? key = o.find? key := by
  induction o with
  | nil => rfl
  | cons m o ih =>
    obtain ⟨name, v⟩ := m
    obtain ⟨hname, hnodup⟩ := List.nodup_cons.mp h
    rw [show (name, v) :: o = [(name, v)] ++ o from rfl, find?_ofMembers_append, ih hnodup]
    rw [List.singleton_append, find?_cons]
    by_cases heq : key = name
    · rw [if_pos heq, find?_eq_none (heq ▸ hname), Option.none_or]
      exact (find?_cons name key v []).trans (if_pos heq)
    · rw [if_neg heq]
      exact (congrArg _ ((find?_cons name key v []).trans (if_neg heq))).trans Option.or_none

/-! ## Sorted objects -/

theorem mem_insert {m : String × Json} (h : m ∈ o.insert key v) : m = (key, v) ∨ m ∈ o := by
  induction o with
  | nil => exact .inl (List.mem_singleton.mp h)
  | cons n o ih =>
    simp only [insert] at h
    split at h
    · exact List.mem_cons.mp h
    · split at h
      · exact (List.mem_cons.mp h).imp_right (List.mem_cons_of_mem n)
      · rcases List.mem_cons.mp h with rfl | hmem
        · exact .inr List.mem_cons_self
        · exact (ih hmem).imp_right (List.mem_cons_of_mem n)

namespace Sorted

theorem nodup (h : o.Sorted) : (o.map Prod.fst).Nodup := by
  refine List.pairwise_map.mpr (List.Pairwise.imp ?_ h)
  intro m n hlt heq
  rw [heq] at hlt
  exact String.lt_irrefl n.1 hlt

/-- **Sorted objects that read alike are the same.** -/
theorem ext (ho : o.Sorted) (hp : p.Sorted) (h : ∀ key, o.find? key = p.find? key) : o = p := by
  have : Std.Irrefl fun m n : String × Json => m.1 < n.1 := ⟨fun m => String.lt_irrefl m.1⟩
  have : Std.Antisymm fun m n : String × Json => m.1 < n.1 :=
    ⟨fun _ _ hmn hnm => absurd hnm (String.lt_asymm hmn)⟩
  exact List.Pairwise.eq_of_mem_iff ho hp fun m => by rw [mem_iff ho.nodup, mem_iff hp.nodup, h]

theorem insert (h : o.Sorted) (key : String) (v : Json) : (o.insert key v).Sorted := by
  induction o with
  | nil => exact List.pairwise_singleton _ _
  | cons n o ih =>
    obtain ⟨hn, ho⟩ := List.pairwise_cons.mp h
    simp only [Object.insert]
    split
    · next hlt =>
      refine List.pairwise_cons.mpr ⟨fun m hm => ?_, h⟩
      rcases List.mem_cons.mp hm with rfl | hm
      · exact hlt
      · exact String.lt_trans hlt (hn m hm)
    · next hge =>
      split
      · next heq => exact List.pairwise_cons.mpr ⟨fun m hm => heq ▸ hn m hm, ho⟩
      · next hne =>
        refine List.pairwise_cons.mpr ⟨fun m hm => ?_, ih ho⟩
        rcases mem_insert hm with rfl | hm
        · exact String.not_le.mp fun hle => hne (String.le_antisymm hle (String.not_lt.mp hge))
        · exact hn m hm

theorem overlay (h : o.Sorted) (p : Object) : (o.overlay p).Sorted := by
  induction p generalizing o with
  | nil => exact h
  | cons m p ih => exact ih (h.insert m.1 m.2)

theorem filter (h : o.Sorted) (keep : String × Json → Bool) : Sorted (o.filter keep) :=
  List.Pairwise.filter keep h

end Sorted

theorem sorted_ofMembers (o : Object) : (ofMembers o).Sorted :=
  Sorted.overlay List.Pairwise.nil o

/-- A sorted object is sorted already. -/
theorem Sorted.ofMembers_eq (h : o.Sorted) : ofMembers o = o :=
  (sorted_ofMembers o).ext h (find?_ofMembers h.nodup)

end Object

end DashboardMarkup.Json
