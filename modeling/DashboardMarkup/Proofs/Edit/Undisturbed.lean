import DashboardMarkup.Proofs.Edit.Legible

/-!
# Widgets beside one that is removed

The removal of a widget should leave all others as they are. What it leaves out besides is white space: the lines of
the widget, and superfluous line breaks of the whole document. Between elements and in their texts these are never
read, and so the dashboard is the same without the widget. In the value of an attribute they are.

* `removeWidget_undisturbed`: the other widgets are the same, in the same order, and in the same groups.
* `removeWidget_squeezes_title`: a title that loses a line break when another widget is removed.
-/

namespace DashboardMarkup.Edit

open Markup Text

variable {f : Forest} {root : Node}

/-- **The removal of a widget leaves all others as they are.** On an orderly board without superfluous line breaks in
the values of attributes, and without a brace directly before a tag, it removes all widgets that carry the id and counts
them. The dashboard has the same other widgets, in the same order, and the same groups with the same other children. -/
theorem removeWidget_undisturbed (h : f.IsOrderly root) (hcompact : f.AllTags WrittenTag.Compact)
    (hlacks : Template.Lacks '\x7b' '<' f.chars) (id : String) :
    ∃ out columns gapX gapY groups,
      removeWidget f.chars id = .ok (out, ((f.nodes widgetNames).filter (·.carries id)).length) ∧
        (Dashboard.parse out).widgets = (Dashboard.parse f.chars).widgets.filter (·.id != id) ∧
        (Dashboard.parse f.chars).canvas.layout = .grid columns gapX gapY groups ∧
        (Dashboard.parse out).canvas.layout = .grid columns gapX gapY (groups.map (Group.without id)) := by
  have hfound := elementsById_wellFormed searchable_of_mem_widgetNames h.wellFormed id
  generalize (f.reached (searchedNames widgetNames) 0).filter (·.answers widgetNames id) = found at hfound
  have hgone : ∀ n : Node, n.carries id = true → n.carries id = true := fun n hn => hn
  have hkept : ∀ e ∈ f.reached (searchedNames widgetNames) 0, e ∉ found → ∀ n : Node, n.Shown f.chars e →
      (n.carries id = true → e ∈ found) → n.carries id = false := by
    intro e he hnot n hn hfinds
    exact Bool.eq_false_iff.mpr fun hcarries => hnot (hfinds hcarries)
  obtain ⟨hremoved, -, root', hroot, hleft, hwidgets⟩ :=
    exists_removed h hcompact hlacks hfound (.refl found) hgone hkept
  refine ⟨(remaining f found).chars, _, _, _, _, ?_, ?_, h.layout, ?_⟩
  · unfold removeWidget
    rw [doomedWidgets_wellFormed h.wellFormed hfound, (shown_elementsById h.wellFormed hfound).length_eq]
    exact hremoved
  · rw [hwidgets, h.widgets_of_sections h.sections, filter_dress root (· != id),
      widgets_left (gridNodes_thinned h hroot) (fun n => h.name_of_mem) hgone (fun n hn => hn)
        (fun n => h.wellFormed_of_mem) fun n => hleft.wellFormed_of_mem]
  · rw [hleft.layout, ← hroot.attrs, groups_thinned h hroot hgone (fun n hn => hn) h.wellFormed_root
      hleft.wellFormed_root]

/-- Key figures with one id in a group and behind it, beside others, one of them with superfluous line breaks. -/
def crowdedGrid : Forest :=
  (element "group" [⟨"id", "g"⟩] ((element "kpi" [⟨"id", "k"⟩] .nil).append
    (.text "\n\n\n\n".toList (element "kpi" [⟨"id", "a"⟩, ⟨"title", "A"⟩]
      (element "config" [] (.text "\x7b\"unit\":\n\n\n\n\"m\"\x7d".toList .nil)))))).append
    (.text "\n\n\n\n".toList ((element "kpi" [⟨"id", "k"⟩] .nil).append
      (.text "\n".toList (element "widget" [⟨"id", "b"⟩, ⟨"type", "line"⟩] .nil))))

theorem isOrderly_crowdedGrid : (board crowdedGrid).IsOrderly (boardRoot crowdedGrid) where
  toIsDashboard := isDashboard_board (by decide +kernel) (by decide +kernel) (by decide +kernel)
  front := by decide +kernel
  sections := by decide +kernel
  canvas := by decide +kernel
  styles := by decide +kernel

/-- Both key figures with the id go, and the others stay in their places. -/
theorem removeWidget_undisturbed_crowdedGrid :
    (board crowdedGrid).IsOrderly (boardRoot crowdedGrid) ∧ (board crowdedGrid).AllTags WrittenTag.Compact ∧
      Template.Lacks '\x7b' '<' (board crowdedGrid).chars ∧
      ∃ out columns gapX gapY groups, removeWidget (board crowdedGrid).chars "k" = .ok (out, 2) ∧
        (Dashboard.parse out).widgets = (Dashboard.parse (board crowdedGrid).chars).widgets.filter (·.id != "k") ∧
        (Dashboard.parse out).widgets.map Widget.id = ["a", "b"] ∧
        (Dashboard.parse (board crowdedGrid).chars).canvas.layout = .grid columns gapX gapY groups ∧
        groups.map Group.children = [["k", "a"]] ∧
        (Dashboard.parse out).canvas.layout = .grid columns gapX gapY (groups.map (Group.without "k")) := by
  have hcompact : (board crowdedGrid).AllTags WrittenTag.Compact := by decide +kernel
  have hlacks : Template.Lacks '\x7b' '<' (board crowdedGrid).chars := by decide +kernel
  obtain ⟨hids, hchildren⟩ : (Dashboard.parse (board crowdedGrid).chars).widgets.map Widget.id = ["k", "a", "k", "b"] ∧
      (Dashboard.parse (board crowdedGrid).chars).canvas.layout.groups?.map (·.map Group.children) =
        some [["k", "a"]] := by
    decide +kernel
  obtain ⟨out, columns, gapX, gapY, groups, hremoved, hwidgets, hbefore, hafter⟩ :=
    removeWidget_undisturbed isOrderly_crowdedGrid hcompact hlacks "k"
  have hcount : (((board crowdedGrid).nodes widgetNames).filter (·.carries "k")).length = 2 := by decide +kernel
  rw [hcount] at hremoved
  refine ⟨isOrderly_crowdedGrid, hcompact, hlacks, out, columns, gapX, gapY, groups, hremoved, hwidgets, ?_, hbefore, ?_,
    hafter⟩
  · have hfilter : ((Dashboard.parse (board crowdedGrid).chars).widgets.filter (·.id != "k")).map Widget.id =
        ((Dashboard.parse (board crowdedGrid).chars).widgets.map Widget.id).filter (· != "k") := by
      rw [List.filter_map]
      rfl
    rw [hwidgets, hfilter, hids]
    decide
  · rw [hbefore] at hchildren
    exact Option.some.inj hchildren

/-- A key figure with a title, and what stands behind it on a grid. -/
def titledGrid (title behind : String) : List Char :=
  ("<dashboard layout-mode=\"grid\"><kpi id=\"a\" title=\"" ++ title ++ "\"/>" ++ behind ++ "</dashboard>").toList

/-- **A title loses a line break when another widget is removed.** -/
theorem removeWidget_squeezes_title :
    (Dashboard.parse (titledGrid "x\n\n\ny" "<kpi id=\"b\"/>")).isValid = true ∧
      removeWidget (titledGrid "x\n\n\ny" "<kpi id=\"b\"/>") "b" = .ok (titledGrid "x\n\ny" "", 1) ∧
      ((Dashboard.parse (titledGrid "x\n\n\ny" "<kpi id=\"b\"/>")).widgets.filter (·.id != "b")).map Widget.title =
        [some "x\n\n\ny"] ∧
      (Dashboard.parse (titledGrid "x\n\ny" "")).widgets.map Widget.title = [some "x\n\ny"] ∧
      (Dashboard.parse (titledGrid "x\n\ny" "")).widgets ≠
        (Dashboard.parse (titledGrid "x\n\n\ny" "<kpi id=\"b\"/>")).widgets.filter (·.id != "b") := by
  obtain ⟨hvalid, hbefore⟩ : (Dashboard.parse (titledGrid "x\n\n\ny" "<kpi id=\"b\"/>")).isValid = true ∧
      ((Dashboard.parse (titledGrid "x\n\n\ny" "<kpi id=\"b\"/>")).widgets.filter (·.id != "b")).map Widget.title =
        [some "x\n\n\ny"] := by
    decide +kernel
  have hafter : (Dashboard.parse (titledGrid "x\n\ny" "")).widgets.map Widget.title = [some "x\n\ny"] := by
    decide +kernel
  refine ⟨hvalid, by decide +kernel, hbefore, hafter, fun hsame => ?_⟩
  rw [hsame, hbefore] at hafter
  exact absurd hafter (by decide)

end DashboardMarkup.Edit
