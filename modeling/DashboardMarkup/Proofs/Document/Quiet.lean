import DashboardMarkup.Proofs.Document.Visuals
import DashboardMarkup.Proofs.Document.Thinned

/-!
# Boards without problems

If a document is read without a problem, none of its parts has one. So every group of an orderly board has its id, and
every element on its grid makes a widget.

* `Forest.IsBoard.named`: the groups of a board without problems have ids.
* `Forest.IsOrderly.tidy`: an orderly board without problems is tidy.
* `isSome_widget?_of_problems`: its elements make widgets.
-/

namespace DashboardMarkup

open Markup Text

/-! ## Readings without notes -/

namespace Reading

variable {α β : Type}

theorem quiet_bind {x : Reading α} {f : α → Reading β} {b : β} (h : (x >>= f) = .ok (b, [])) :
    ∃ a, x = .ok (a, []) ∧ f a = .ok (b, []) := by
  obtain ⟨a, first, second, hx, hf, hnotes⟩ := bind_eq_ok.mp h
  obtain ⟨rfl, rfl⟩ := List.append_eq_nil_iff.mp hnotes.symm
  exact ⟨a, hx, hf⟩

theorem quiet_mapM {f : α → Reading β} {as : List α} {bs : List β} (h : as.mapM f = .ok (bs, [])) :
    ∀ a ∈ as, ∃ b, f a = .ok (b, []) := by
  induction as generalizing bs with
  | nil => exact fun a ha => absurd ha List.not_mem_nil
  | cons a as ih =>
    obtain ⟨b, first, rest, second, hb, hrest, -, hnotes⟩ := mapM_eq_ok_cons.mp h
    obtain ⟨rfl, rfl⟩ := List.append_eq_nil_iff.mp hnotes.symm
    exact List.forall_mem_cons.mpr ⟨⟨b, hb⟩, ih hrest⟩

end Reading

/-! ## Groups without problems -/

/-- Of a group without an id there is something to note. -/
theorem GroupPart.isSome_id {doc : List Char} {columns : Breakpoints Nat} {e : Element} {part : GroupPart}
    (h : GroupPart.read doc columns e = .ok (part, [])) : (e.attrs.text? "id").isSome := by
  unfold GroupPart.read at h
  split at h
  · cases hid : e.attrs.text? "id" with
    | none =>
      rw [hid] at h
      obtain ⟨_, hnote, -⟩ := Reading.quiet_bind h
      cases hnote
    | some id => rfl
  · cases h

/-- So there is of a grid with such a group. -/
theorem Placement.isSome_id {doc : List Char} {attrs : Attributes} {body : Span} {placement : Placement}
    (h : Placement.readGrid doc attrs body = .ok (placement, [])) {found : List Element}
    (hfound : find doc body ["group"] = .ok found) : ∀ e ∈ found, (e.attrs.text? "id").isSome := by
  obtain ⟨groups, hgroups, h⟩ := Reading.quiet_bind h
  obtain rfl := Except.ok.inj (hfound.symm.trans (Reading.Gives.eq_ok ⟨[], hgroups⟩))
  obtain ⟨parts, hparts, -⟩ := Reading.quiet_bind h
  intro e he
  obtain ⟨part, hpart⟩ := Reading.quiet_mapM hparts e he
  exact GroupPart.isSome_id hpart

namespace Markup

variable {f : Forest} {root : Node}

/-- **The groups of a board without problems have ids.** -/
theorem Forest.IsBoard.named (h : f.IsBoard root) (hproblems : (Dashboard.parse f.chars).problems = []) :
    ∀ g ∈ root.content.nodes ["group"], (g.attrs.text? "id").isSome := by
  obtain ⟨notes, hread⟩ := gives_readDocument h.wellFormed h.first h.grid
  have hnotes : notes = [] := by
    unfold Dashboard.parse Dashboard.read Dashboard.ofDocument at hproblems
    rw [Template.resolve_untagged h.untagged, if_pos h.markup, hread] at hproblems
    exact List.map_eq_nil_iff.mp hproblems
  rw [hnotes] at hread
  obtain ⟨e, hshown, hfind⟩ := exists_root h.wellFormed h.first
  obtain ⟨found, hfound, hgroups⟩ := @Node.Shown.find _ _ _ hshown h.wellFormed_root ["group"] (by decide)
  obtain ⟨root', hroot, hread⟩ := Reading.quiet_bind hread
  obtain rfl := Except.ok.inj (hfind.symm.trans (Reading.Gives.eq_ok ⟨[], hroot⟩))
  obtain ⟨heading, -, hread⟩ := Reading.quiet_bind hread
  obtain ⟨period, -, hread⟩ := Reading.quiet_bind hread
  obtain ⟨blocks, -, hread⟩ := Reading.quiet_bind hread
  obtain ⟨sections, -, hread⟩ := Reading.quiet_bind hread
  obtain ⟨mode, hmode, hread⟩ := Reading.quiet_bind hread
  obtain rfl := Reading.Gives.unique ⟨[], hmode⟩ (gives_readMode h.grid e.start)
  obtain ⟨placement, hplacement, -⟩ := Reading.quiet_bind hread
  intro g hg
  obtain ⟨d, hd, hshown⟩ := exists_of_mem_left hgroups hg
  rw [← hshown.attrs]
  exact Placement.isSome_id hplacement hfound d hd

/-- **An orderly board without problems is tidy.** -/
theorem Forest.IsOrderly.tidy (h : f.IsOrderly root) (hproblems : (Dashboard.parse f.chars).problems = []) :
    f.IsTidy root where
  toIsBoard := h.toIsBoard
  named := h.toIsBoard.named hproblems
  apart := h.inside
  styles := h.styles

/-- **On a tidy board without problems every element makes a widget.** -/
theorem isSome_widget?_of_problems (h : f.IsTidy root) (hproblems : (Dashboard.parse f.chars).problems = []) :
    ∀ n ∈ root.content.nodes widgetNames, n.widget?.isSome := by
  have hrefused := h.refused
  rw [hproblems] at hrefused
  intro n hn
  have hmem := h.perm_nodes.mem_iff.mpr hn
  have hnone : n.refusal? = none := List.filterMap_eq_nil_iff.mp hrefused.symm n hmem
  have hsome := isSome_refusal? (h.wellFormed_of_mem hmem)
  rw [hnone, Option.isSome_none] at hsome
  exact (Bool.not_eq_false' n.widget?.isSome).mp hsome.symm

end Markup

end DashboardMarkup
