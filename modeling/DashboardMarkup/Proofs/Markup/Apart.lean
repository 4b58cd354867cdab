import DashboardMarkup.Proofs.Markup.Strewn
import Mathlib.Data.List.Flatten

/-!
# Elements apart from others

A grid reads the widgets in its groups and those outside all groups. If no widget holds a group, then these
are all its widgets, each once, though in another order.

* `nodes_eq_flatMap`: the elements of some names, inside those that are left out and outside, in their order.
* `loose_sublist`, `loose_eq_nodes`: those outside stand in the same order as all.
* `inside_append_loose`, `perm_apart`: all elements, with the ones inside put first.
-/

namespace DashboardMarkup.Markup

open Text

/-- None of some names is another one, in any case of letters. -/
def Foreign (left : String) (names : List String) : Prop :=
  ∀ s ∈ names, lower s.toList ≠ lower left.toList

instance (left : String) (names : List String) : Decidable (Foreign left names) :=
  inferInstanceAs (Decidable (∀ s ∈ names, _))

/-- What an element holds of those of some names: one that is left out those in it, and any other one itself. -/
def Node.held (left : String) (names : List String) (n : Node) : List Node :=
  if n.name == left then n.content.nodes names else [n]

/-- The elements outside those that are left out, element by element. -/
theorem loose_eq_flatMap (left : String) (names : List String) (f : Forest) :
    f.loose left names = (f.nodes (left :: names)).flatMap fun n => if n.name == left then [] else [n] := by
  unfold Forest.loose
  induction f.nodes (left :: names) with
  | nil => rfl
  | cons n ns ih =>
    rw [List.filter_cons, List.flatMap_cons, ih]
    by_cases hname : n.name = left
    · simp [hname]
    · simp [hname]

section

variable {left : String} {names : List String} (hforeign : Foreign left names)

include hforeign

theorem Foreign.not_mem : left ∉ names := fun hmem => hforeign left hmem rfl

/-- A tag that is left out is not looked for. -/
theorem nameIn?_foreign (tag : WrittenTag) :
    (tag.nameIn? [left] = some left ∧ tag.nameIn? (left :: names) = some left ∧ tag.nameIn? names = none) ∨
      (tag.nameIn? [left] = none ∧ tag.nameIn? (left :: names) = tag.nameIn? names ∧
        ∀ name, tag.nameIn? names = some name → name ≠ left) := by
  by_cases h : lower tag.name = lower left.toList
  · have hnone : tag.nameIn? names = none := List.find?_eq_none.mpr fun s hs hsame =>
      hforeign s hs ((beq_iff_eq.mp hsame).symm.trans h)
    refine Or.inl ⟨?_, ?_, hnone⟩
    · rw [nameIn?_cons, if_pos h]
    · rw [nameIn?_cons, if_pos h]
  · rcases nameIn?_left hforeign.not_mem tag with ⟨hleft, -⟩ | hother
    · rw [nameIn?_cons, if_neg h] at hleft
      exact absurd hleft (by simp [WrittenTag.nameIn?])
    · exact Or.inr hother

/-- **All elements of some names, in their order**: those inside the ones that are left out, and those outside. -/
theorem nodes_eq_flatMap (f : Forest) :
    f.nodes names = (f.nodes (left :: names)).flatMap (Node.held left names) := by
  induction f with
  | nil => rfl
  | text t rest ih => exact ih
  | comment t rest ih => exact ih
  | single tag gap rest ih =>
    rw [Forest.nodes, Forest.nodes, List.flatMap_append, ← ih]
    rcases nameIn?_foreign hforeign tag with ⟨-, hall, hin⟩ | ⟨-, hall, hname⟩
    · simp [hall, hin, Node.held, Forest.nodes]
    · cases hin : tag.nameIn? names with
      | none => simp [hall, hin]
      | some name => simp [hall, hin, Node.held, hname name hin]
  | paired tag children close rest ihc ih =>
    rw [Forest.nodes, Forest.nodes, List.flatMap_append, ← ih]
    rcases nameIn?_foreign hforeign tag with ⟨-, hall, hin⟩ | ⟨-, hall, hname⟩
    · simp [hall, hin, Node.held]
    · cases hin : tag.nameIn? names with
      | none => simp [hall, hin, ihc]
      | some name => simp [hall, hin, Node.held, hname name hin]

/-- **The elements outside those that are left out** are some of all. -/
theorem loose_sublist (f : Forest) : (f.loose left names).Sublist (f.nodes names) := by
  rw [nodes_eq_flatMap hforeign, loose_eq_flatMap]
  refine List.Sublist.flatMap_right _ fun n _ => ?_
  unfold Node.held
  split
  · exact List.nil_sublist _
  · exact .refl _

/-- **If nothing is found in the elements that are left out**, those outside are all. -/
theorem loose_eq_nodes {f : Forest}
    (h : ∀ n ∈ f.nodes (left :: names), n.name = left → n.content.nodes names = []) :
    f.loose left names = f.nodes names := by
  rw [nodes_eq_flatMap hforeign, loose_eq_flatMap]
  refine List.flatMap_congr fun n hn => ?_
  unfold Node.held
  split
  · next hname => exact (h n hn (beq_iff_eq.mp hname)).symm
  · rfl

/-- Where no element of some names holds one that is left out, a search for those finds what it finds together with
elements of those names. -/
theorem nodes_left_of_apart {f : Forest} (hapart : f.Apart left names) :
    f.nodes [left] = (f.nodes (left :: names)).filter (·.name == left) := by
  induction f with
  | nil => rfl
  | text t rest ih => exact ih hapart
  | comment t rest ih => exact ih hapart
  | single tag gap rest ih =>
    rw [Forest.nodes, Forest.nodes, List.filter_append, ← ih fun n hn => hapart n (List.mem_append_right _ hn)]
    rcases nameIn?_foreign hforeign tag with ⟨hleft, hall, -⟩ | ⟨hleft, hall, hname⟩
    · simp [hleft, hall]
    · cases hin : tag.nameIn? names with
      | none => simp [hleft, hall, hin]
      | some name => simp [hleft, hall, hin, hname name hin]
  | paired tag children close rest ihc ih =>
    rw [Forest.nodes, Forest.nodes, List.filter_append, ← ih fun n hn => hapart n (List.mem_append_right _ hn)]
    rcases nameIn?_foreign hforeign tag with ⟨hleft, hall, -⟩ | ⟨hleft, hall, hname⟩
    · simp [hleft, hall]
    · cases hin : tag.nameIn? names with
      | none =>
        rw [hin] at hall
        have hinside := ihc fun n hn => hapart n (by
          rw [Forest.nodes, hall]
          exact List.mem_append_left _ hn)
        simp [hleft, hall, hinside]
      | some name =>
        rw [hin] at hall
        have hempty : children.nodes [left] = [] := hapart ⟨name, tag.meant, children⟩ (by
          rw [Forest.nodes, hall]
          exact List.mem_append_left _ (List.mem_singleton.mpr rfl)) (hname name hin)
        simp [hleft, hall, hempty, hname name hin]

/-- **The elements inside those that are left out, and then those outside**: what the former hold is put first. -/
theorem inside_append_loose {f : Forest} (hapart : f.Apart left names) :
    (f.nodes [left]).flatMap (fun n => n.content.nodes names) ++ f.loose left names =
      ((f.nodes (left :: names)).filter (·.name == left) ++
        (f.nodes (left :: names)).filter fun n => !(n.name == left)).flatMap (Node.held left names) := by
  have hinside : (f.nodes [left]).flatMap (fun n => n.content.nodes names) =
      ((f.nodes (left :: names)).filter (·.name == left)).flatMap (Node.held left names) := by
    rw [nodes_left_of_apart hforeign hapart]
    refine List.flatMap_congr fun n hn => ?_
    unfold Node.held
    rw [if_pos (List.mem_filter.mp hn).2]
  have houtside : f.loose left names =
      ((f.nodes (left :: names)).filter fun n => !(n.name == left)).flatMap (Node.held left names) := by
    have hself : ∀ n ∈ (f.nodes (left :: names)).filter (fun n => !(n.name == left)), n.held left names = [n] := by
      intro n hn
      unfold Node.held
      rw [if_neg (by simpa using (List.mem_filter.mp hn).2)]
    rw [List.flatMap_congr hself, List.flatMap_singleton']
    rfl
  rw [hinside, houtside, List.flatMap_append]

/-- **All elements of some names are those inside the ones that are left out, and those outside**, if none of
them holds one that is left out. -/
theorem perm_apart {f : Forest} (hapart : f.Apart left names) :
    (f.nodes names).Perm
      ((f.nodes [left]).flatMap (fun n => n.content.nodes names) ++ f.loose left names) := by
  rw [nodes_eq_flatMap hforeign, inside_append_loose hforeign hapart]
  exact ((List.filter_append_perm (·.name == left) (f.nodes (left :: names))).flatMap_right _).symm

end

end DashboardMarkup.Markup
