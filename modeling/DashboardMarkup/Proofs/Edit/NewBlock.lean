import DashboardMarkup.Proofs.Edit.Block
import DashboardMarkup.Proofs.Edit.Refill
import DashboardMarkup.Proofs.Template.Written

/-!
# Widgets with a new block

A widget in which a block is written is a widget with the same tag, in the same place of the dashboard. Of the
blocks of the name it has the new one first and, behind it, all it had but the first.

* `Rewritten.swap`: one widget changed for another one.
* `Rewritten.blocks`: the blocks of the name in it.
* `Rewritten.untagged`: no opening mark of a template is written.
-/

namespace DashboardMarkup.Edit

open Markup Template Text

/-! ## One element -/

/-- The content of the first element of a tree. -/
def inner : Forest → Forest
  | .paired _ children _ _ => children
  | _ => .nil

/-- The first of some names that is a name, in any case of letters. -/
def sameIn? (names : List String) (name : String) : Option String :=
  names.find? fun s => lower name.toList == lower s.toList

theorem nameIn?_eq_sameIn? {tag : WrittenTag} {name : String} (h : lower tag.name = lower name.toList)
    (names : List String) : tag.nameIn? names = sameIn? names name := by
  unfold WrittenTag.nameIn? sameIn?
  rw [h]

theorem sameIn?_widget {name : String} (h : name ∈ widgetNames) : sameIn? widgetNames name = some name := by
  revert name
  decide

theorem sameIn?_foreign {left name : String} (hleft : Foreign left widgetNames) (h : name ∈ widgetNames) :
    sameIn? [left] name = none ∧ sameIn? (left :: widgetNames) name = some name := by
  have hne : (lower name.toList == lower left.toList) = false := by
    simpa using hleft name h
  constructor
  · simp [sameIn?, hne]
  · unfold sameIn?
    rw [List.find?_cons, hne]
    exact sameIn?_widget h

section

variable {names : List String} {start : Nat} {x : Forest} {e : Element} (h : x.Spells names start e)

include h

/-- A search that looks for the element finds it. -/
theorem nodes_of_sameIn {others : List String} (hin : sameIn? others e.name = some e.name) :
    x.nodes others = [⟨e.name, e.attrs, inner x⟩] := by
  cases h with
  | @single tag gap name htag =>
    have hlower := @List.find?_some _ (fun name : String => lower tag.name == lower name.toList) _ _ htag
    simp only [Forest.nodes, nameIn?_eq_sameIn? (beq_iff_eq.mp hlower), hin, inner, List.append_nil]
  | @paired tag children close name htag =>
    have hlower := @List.find?_some _ (fun name : String => lower tag.name == lower name.toList) _ _ htag
    simp only [Forest.nodes, nameIn?_eq_sameIn? (beq_iff_eq.mp hlower), hin, inner, List.append_nil]

/-- A search that does not finds what is in it. -/
theorem nodes_of_not_sameIn {others : List String} (hin : sameIn? others e.name = none) :
    x.nodes others = (inner x).nodes others := by
  cases h with
  | @single tag gap name htag =>
    have hlower := @List.find?_some _ (fun name : String => lower tag.name == lower name.toList) _ _ htag
    simp only [Forest.nodes, nameIn?_eq_sameIn? (beq_iff_eq.mp hlower), hin, inner, List.append_nil]
  | @paired tag children close name htag =>
    have hlower := @List.find?_some _ (fun name : String => lower tag.name == lower name.toList) _ _ htag
    simp only [Forest.nodes, nameIn?_eq_sameIn? (beq_iff_eq.mp hlower), hin, inner, List.append_nil]

/-- It begins with its tag. -/
theorem exists_chars : ∃ rest, x.chars = '<' :: rest := by
  cases h with
  | single gap htag => exact ⟨_, rfl⟩
  | paired children close htag => exact ⟨_, rfl⟩

end

theorem nodes_paired_eq_nil {names : List String} {tag : WrittenTag} {children : Forest} {close : WrittenClose} :
    (Forest.paired tag children close .nil).nodes names = [] ↔
      tag.nameIn? names = none ∧ children.nodes names = [] := by
  cases hin : tag.nameIn? names with
  | none => simp [Forest.nodes, hin]
  | some name => simp [Forest.nodes, hin]

/-! ## The new element -/

section

variable {searched : List String} {name : String} {block old x y : Forest}
  (h : Rewritten searched name block old x y)

include h

/-- Its tag says the same. -/
theorem Rewritten.spells {names : List String} {start : Nat} {e : Element} (hx : x.Spells names start e) :
    ∃ e', y.Spells names start e' ∧ e'.name = e.name ∧ e'.attrs = e.attrs := by
  cases h with
  | replaced tag close hclear hleft hnodes hmname =>
    cases hx with
    | paired _ _ hin => exact ⟨_, .paired _ close hin, rfl, rfl⟩
  | first tag close hnone hline =>
    cases hx with
    | paired _ _ hin => exact ⟨_, .paired _ close hin, rfl, rfl⟩
  | last tag close hnone hline =>
    cases hx with
    | paired _ _ hin => exact ⟨_, .paired _ close hin, rfl, rfl⟩
  | @opened tag gap tagName line ending htagName hlower hvalues hline hending =>
    cases hx with
    | @single _ _ tagName' hin =>
      have hin' : (WrittenTag.rendered tagName tag.meant []).nameIn? names = some tagName' := by
        rw [← hin]
        unfold WrittenTag.nameIn?
        rw [hlower]
        rfl
      exact ⟨_, .paired _ _ hin', rfl, meant_rendered tagName tag.meant []⟩

/-- Where it held none of some names, it holds none if the block does not. -/
theorem Rewritten.nodes_eq_nil {others : List String} (hblock : block.nodes others = [])
    (hx : x.nodes others = []) : y.nodes others = [] := by
  cases h with
  | @replaced tag close c old m hclear hleft hnodes hmname =>
    obtain ⟨hin, hx⟩ := nodes_paired_eq_nil.mp hx
    exact nodes_paired_eq_nil.mpr ⟨hin, nodes_fill_eq_nil hx fun _ => hblock⟩
  | @first tag close children line hnone hline =>
    obtain ⟨hin, hx⟩ := nodes_paired_eq_nil.mp hx
    refine nodes_paired_eq_nil.mpr ⟨hin, ?_⟩
    rw [Forest.nodes, Forest.nodes_append, hblock, hx]
    rfl
  | @last tag close children line hnone hline =>
    obtain ⟨hin, hx⟩ := nodes_paired_eq_nil.mp hx
    refine nodes_paired_eq_nil.mpr ⟨hin, ?_⟩
    rw [Forest.nodes_append, Forest.nodes, hblock, hx]
    rfl
  | @opened tag gap tagName line ending htagName hlower hvalues hline hending =>
    have hin : tag.nameIn? others = none := by
      cases hin : tag.nameIn? others with
      | none => rfl
      | some other =>
        rw [Forest.nodes, hin] at hx
        exact absurd hx (by simp)
    refine nodes_paired_eq_nil.mpr ⟨?_, ?_⟩
    · rw [← hin]
      unfold WrittenTag.nameIn?
      rw [hlower]
      rfl
    · rw [Forest.nodes, Forest.nodes_append, hblock]
      rfl

/-- **Of the blocks of the name, the new one stands first**, and those behind the first one stay. -/
theorem Rewritten.blocks {b : Node} (hblock : block.nodes searched = [b]) (hname : b.name = name) :
    ((inner y).nodes searched).filter (·.name == name) =
      b :: (((inner x).nodes searched).filter (·.name == name)).tail := by
  have hnone : ∀ ns : List Node, (∀ m ∈ ns, m.name ≠ name) → ns.filter (·.name == name) = [] :=
    fun ns hns => List.filter_eq_nil_iff.mpr fun m hm heq => hns m hm (beq_iff_eq.mp heq)
  cases h with
  | @replaced tag close c old m hclear hleft hnodes hmname =>
    simp only [inner, Context.nodes_fill hclear, hblock, hnodes, List.filter_append, hnone _ hleft,
      List.filter_cons, hname, hmname, beq_self_eq_true, if_true, List.nil_append, List.cons_append,
      List.tail_cons]
  | @first tag close children line hothers hline =>
    simp only [inner, Forest.nodes, Forest.nodes_append, hblock, List.filter_append, hnone _ hothers,
      List.filter_cons, hname, beq_self_eq_true, if_true, List.filter_nil, List.append_nil, List.tail_nil]
  | @last tag close children line hothers hline =>
    simp only [inner, Forest.nodes, Forest.nodes_append, hblock, List.filter_append, hnone _ hothers,
      List.filter_cons, hname, beq_self_eq_true, if_true, List.filter_nil, List.nil_append, List.tail_nil]
  | @opened tag gap tagName line ending htagName hlower hvalues hline hending =>
    simp only [inner, Forest.nodes, Forest.nodes_append, hblock, List.append_nil, List.filter_cons, hname,
      beq_self_eq_true, if_true, List.filter_nil, List.tail_nil]

/-- **One widget is changed for another one.** -/
theorem Rewritten.swap {names : List String} {start : Nat} {e : Element} (hx : x.Spells names start e)
    (he : e.name ∈ widgetNames) (hblock : ∀ left ∈ containerNames, block.nodes [left] = []) :
    Swap x y ⟨e.name, e.attrs, inner x⟩ ⟨e.name, e.attrs, inner y⟩ := by
  obtain ⟨e', hy, hname, hattrs⟩ := h.spells hx
  have he' : e'.name ∈ widgetNames := hname ▸ he
  have hynodes : ∀ {others : List String}, sameIn? others e'.name = some e'.name →
      y.nodes others = [⟨e.name, e.attrs, inner y⟩] := fun hin => by
    rw [nodes_of_sameIn hy hin, hname, hattrs]
  refine ⟨he, rfl, rfl, ⟨nodes_of_sameIn hx (sameIn?_widget he), hynodes (sameIn?_widget he')⟩, fun hleft => ?_,
    fun hleft => ?_, fun hleft => h.nodes_eq_nil (hblock _ hleft)⟩
  · exact ⟨nodes_of_sameIn hx (sameIn?_foreign hleft he).2, hynodes (sameIn?_foreign hleft he').2⟩
  · exact ⟨nodes_of_not_sameIn hx (sameIn?_foreign hleft he).1,
      nodes_of_not_sameIn hy (sameIn?_foreign hleft he').1⟩

end

/-! ## The new text -/

/-- A document begins with a tag if one with the same text before a tag does. -/
theorem isMarkup_congr {before s t : List Char} (h : Dashboard.isMarkup (before ++ '<' :: s) = true) :
    Dashboard.isMarkup (before ++ '<' :: t) = true := by
  unfold Dashboard.isMarkup at h ⊢
  have hstart : ∀ rest, (trimStart (before ++ '<' :: rest)).head? =
      ((trimStart before).head?).or (some '<') := fun rest => by
    unfold trimStart
    rw [List.dropWhile_append]
    cases hdrop : before.dropWhile isBlank with
    | nil => rfl
    | cons c cs => rfl
  rw [hstart] at h ⊢
  exact h

theorem Blank.untagged {line : List Char} (h : Blank line) : Untagged line :=
  untagged_of_not_mem fun hmem => absurd (h _ hmem) (by decide)

/-- Blanks behind a text without marks. -/
theorem untagged_append_blank {s line : List Char} (hs : Untagged s) (h : Blank line) : Untagged (s ++ line) := by
  refine untagged_append.mpr ⟨hs, h.untagged, fun _ _ b hb _ => ?_⟩
  have hblank := h b (List.mem_of_mem_head? hb)
  constructor
  · rintro rfl
    exact absurd hblank (by decide)
  · rintro rfl
    exact absurd hblank (by decide)

theorem shut_close {name : String} (hname : TagName name) : Shut (['<', '/'] ++ (name.toList ++ ['>'])) := by
  refine Shut.around (by decide) (untagged_of_not_mem fun hmem => ?_) (by decide)
  exact absurd (hname.2 _ hmem) (by decide)

/-- **No opening mark is written** if the block is shut. -/
theorem Rewritten.untagged {searched : List String} {name : String} {block old x y : Forest}
    (h : Rewritten searched name block old x y) {before behind : List Char}
    (hdoc : Untagged (before ++ (x.chars ++ behind))) (hblock : Shut block.chars) :
    Untagged (before ++ (y.chars ++ behind)) := by
  cases h with
  | @replaced tag close c old m hclear hleft hnodes hmname =>
    have hx : before ++ ((Forest.paired tag (c.fill old) close .nil).chars ++ behind) =
        (before ++ (tag.text ++ '>' :: c.before)) ++ (old.chars ++ (c.behind ++ (close.text ++ behind))) := by
      simp [Forest.chars, Context.chars_fill]
    have hy : before ++ ((Forest.paired tag (c.fill block) close .nil).chars ++ behind) =
        (before ++ (tag.text ++ '>' :: c.before)) ++ (block.chars ++ (c.behind ++ (close.text ++ behind))) := by
      simp [Forest.chars, Context.chars_fill]
    rw [hx] at hdoc
    rw [hy]
    obtain ⟨hfront, hback, -⟩ := untagged_append.mp hdoc
    exact hblock.between hfront (untagged_append.mp hback).2.1
  | @first tag close children line hnone hline =>
    have hx : before ++ ((Forest.paired tag children close .nil).chars ++ behind) =
        (before ++ (tag.text ++ ['>'])) ++ (children.chars ++ (close.text ++ behind)) := by
      simp [Forest.chars]
    have hy : before ++ ((Forest.paired tag (.text line (block.append children)) close .nil).chars ++ behind) =
        (before ++ (tag.text ++ ['>']) ++ line) ++ (block.chars ++ (children.chars ++ (close.text ++ behind))) := by
      simp [Forest.chars, Forest.chars_append]
    rw [hx] at hdoc
    rw [hy]
    obtain ⟨hfront, hback, -⟩ := untagged_append.mp hdoc
    exact hblock.between (untagged_append_blank hfront hline) hback
  | @last tag close children line hnone hline =>
    have hx : before ++ ((Forest.paired tag children close .nil).chars ++ behind) =
        (before ++ (tag.text ++ '>' :: children.chars)) ++ (close.text ++ behind) := by
      simp [Forest.chars]
    have hy : before ++ ((Forest.paired tag (children.append (.text line block)) close .nil).chars ++ behind) =
        (before ++ (tag.text ++ '>' :: children.chars) ++ line) ++ (block.chars ++ (close.text ++ behind)) := by
      simp [Forest.chars, Forest.chars_append]
    rw [hx] at hdoc
    rw [hy]
    obtain ⟨hfront, hback, -⟩ := untagged_append.mp hdoc
    exact hblock.between (untagged_append_blank hfront hline) hback
  | @opened tag gap tagName line ending htagName hlower hvalues hline hending =>
    obtain ⟨hfront, hback, -⟩ := untagged_append.mp hdoc
    obtain ⟨hx, hbehind, -⟩ := untagged_append.mp hback
    have htag : Untagged tag.text := (untagged_append.mp hx).1
    have hopen : Shut ((WrittenTag.rendered tagName tag.meant []).text ++ ['>']) :=
      shut_rendered htagName.2 (untagged_meant htag) (by decide)
    have hy : (Forest.paired (WrittenTag.rendered tagName tag.meant [])
        (.text line (block.append (.text ending .nil))) ⟨tagName.toList, []⟩ .nil).chars =
          ((WrittenTag.rendered tagName tag.meant []).text ++ ['>']) ++ ((line ++ (block.chars ++ ending)) ++
            (['<', '/'] ++ (tagName.toList ++ ['>']))) := by
      simp [Forest.chars, Forest.chars_append, WrittenClose.text]
    rw [hy]
    exact (hopen.around (hblock.between hline.untagged hending.untagged) (shut_close htagName)).between hfront hbehind

end DashboardMarkup.Edit
