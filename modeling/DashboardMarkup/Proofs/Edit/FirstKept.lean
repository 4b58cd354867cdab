import DashboardMarkup.Proofs.Document.FirstShown
import DashboardMarkup.Proofs.Edit.Legible

/-!
# The widget that stays of several with one id

Of the widgets with one id, all but the first one of the document are removed. That one stays as it was, and so do the
widgets with other ids. A dashboard however gives the widgets of groups first: where a widget outside of groups comes
before one with the same id in a group, another one stays than the one that was shown.

* `spared_duplicates`: the search for the id finds one widget in what remains.
* `Forest.elsewhere`: the widgets outside of the dashboard.
* `exists_deduped`: what a removal of duplicates makes of an orderly board.
* `dedupeWidget_keeps_first`: the first widget stays.
* `dedupeWidget_hides_shown`: a widget of a group that is removed though it was the one that was shown.
-/

namespace DashboardMarkup

open Markup Text

namespace Markup

/-! ## Widgets outside of the dashboard -/

/-- The elements that make widgets and do not stand in the first dashboard. -/
def Forest.elsewhere (f : Forest) : List Node :=
  ((f.nodes ["dashboard"]).drop 1).flatMap (fun n => n.content.nodes widgetNames) ++ f.loose "dashboard" widgetNames

section

variable {gone kept : Node → Prop} {f g : Forest} {n root root' : Node} {id : String}

theorem name_of_mem_elsewhere (hn : n ∈ f.elsewhere) : n.name ∈ widgetNames := by
  rcases List.mem_append.mp hn with hn | hn
  · obtain ⟨d, -, hn⟩ := List.mem_flatMap.mp hn
    exact name_of_mem_nodes hn
  · exact name_of_mem_loose hn

/-- Together with those in the dashboard they are all. -/
theorem Forest.IsDashboard.perm_elsewhere (h : f.IsDashboard root) :
    (f.nodes widgetNames).Perm (root.content.nodes widgetNames ++ f.elsewhere) := by
  have hperm := perm_apart foreign_dashboard h.outside
  have hfirst := h.first
  unfold Forest.elsewhere
  cases hnodes : f.nodes ["dashboard"] with
  | nil =>
    rw [hnodes] at hfirst
    exact absurd hfirst (by simp)
  | cons n more =>
    rw [hnodes] at hfirst hperm
    obtain rfl := Option.some.inj hfirst
    rwa [List.flatMap_cons, List.append_assoc] at hperm

/-- What is left of them. -/
theorem elsewhere_thinned (hapart : f.Apart "dashboard" widgetNames) (h : f.Thinned widgetNames gone kept g) :
    Left widgetNames gone kept f.elsewhere g.elsewhere := by
  have hrel : List.Forall₂ (fun n n' => n.name = "dashboard" ∧ n.Thinned widgetNames gone kept n')
      ((f.nodes ["dashboard"]).drop 1) ((g.nodes ["dashboard"]).drop 1) :=
    (List.forall₂_and_left _ _).mpr ⟨fun n hn => List.mem_singleton.mp (name_of_mem_nodes (List.mem_of_mem_drop hn)),
      List.forall₂_drop 1 (rel_nodes_left foreign_dashboard sees_widgetNames hapart h)⟩
  refine (Left.flatMap hrel fun n n' hn => nodes_thinned sees_widgetNames (hn.2.content ?_)).append
    (rel_loose foreign_dashboard sees_widgetNames h)
  rw [hn.1]
  exact foreign_dashboard.not_mem

/-- An orderly board whose groups have ids is tidy without some of its widgets. -/
theorem tidy_thinned (h : f.IsOrderly root)
    (hnamed : ∀ n ∈ root.content.nodes ["group"], (n.attrs.text? "id").isSome)
    (hroot : root.Thinned widgetNames gone kept root') (hg : g.IsDashboard root') : g.IsTidy root' := by
  have hgroups := rel_groups h hroot
  refine ⟨hg.toIsBoard, fun n' hn' => ?_, hg.inside, fun n' hn' s' hs' => ?_⟩
  · obtain ⟨n, hn, hthinned⟩ := exists_of_mem_left hgroups.flip hn'
    rw [← hthinned.attrs]
    exact hnamed n hn
  · obtain ⟨n, hn, hthinned⟩ := exists_of_mem_left hgroups.flip hn'
    have hname : n.name ∉ widgetNames := by
      rw [List.mem_singleton.mp (name_of_mem_nodes hn)]
      exact foreign_group.not_mem
    have hstyles : List.Forall₂ Node.Alike n.styles n'.styles :=
      rel_styles (by decide) (hthinned.content hname) fun s hs hstyle =>
        h.styles n hn s (List.mem_filter.mpr ⟨hs, beq_iff_eq.mpr hstyle⟩)
    obtain ⟨s, hs, halike⟩ := exists_of_mem_left hstyles.flip hs'
    have hnone := nodes_alike halike.content widgetNames
    rw [h.styles n hn s hs] at hnone
    exact List.forall₂_nil_left_iff.mp hnone

/-- If all widgets with an id stand in the dashboard, none stands elsewhere. -/
theorem filter_elsewhere_eq_nil (h : f.IsDashboard root)
    (hinside : (f.nodes widgetNames).filter (·.carries id) = (root.content.nodes widgetNames).filter (·.carries id)) :
    f.elsewhere.filter (·.carries id) = [] := by
  have hlength := (h.perm_elsewhere.filter (·.carries id)).length_eq
  rw [hinside, List.filter_append, List.length_append] at hlength
  exact List.length_eq_zero_iff.mp (by omega)

/-- Neither does one in what is left. -/
theorem elsewhere_left {ns ns' : List Node} (h : Left widgetNames gone kept ns ns')
    (hnames : ∀ n ∈ ns, n.name ∈ widgetNames) (hnone : ns.filter (·.carries id) = []) :
    ns'.filter (·.carries id) = [] := by
  refine List.filter_eq_nil_iff.mpr fun n' hn' hcarries => ?_
  obtain ⟨n, hn, hthinned⟩ := h.exists_of_mem hn'
  rw [carries_alike id (hthinned.alike (hnames n hn)).1] at hcarries
  exact List.filter_eq_nil_iff.mp hnone n hn hcarries

/-- **If no widget with an id stands elsewhere, the grid has as many as the document.** -/
theorem length_filter_gridNodes (h : f.IsTidy root) (houtside : f.Apart "dashboard" widgetNames)
    (hnone : f.elsewhere.filter (·.carries id) = []) :
    (root.gridNodes.filter (·.carries id)).length = ((f.nodes widgetNames).filter (·.carries id)).length := by
  have hdashboard : f.IsDashboard root := ⟨h.toIsBoard, houtside, h.apart⟩
  rw [h.gridNodes_eq, (h.perm_nodes.filter _).length_eq, (hdashboard.perm_elsewhere.filter _).length_eq,
    List.filter_append, hnone, List.append_nil]

/-- **Of the widgets with an id that are left, each is the one of an element that shows it**, if no other widget with
the id is kept. -/
theorem widget?_left {doc : List Char} {e : Element} {first : Node} {ns ns' : List Node}
    (h : Left widgetNames gone (fun n => n.carries id = true → n.Shown doc e) ns ns')
    (hnames : ∀ n ∈ ns, n.name ∈ widgetNames) (hwell : ∀ n ∈ ns, n.content.WellFormed)
    (hwell' : ∀ n ∈ ns', n.content.WellFormed) (hfirst : first.Shown doc e) (hcontent : first.content.WellFormed) :
    ∀ n' ∈ ns', n'.carries id = true → n'.widget? = first.widget? := by
  intro n' hn' hcarries
  obtain ⟨n, hn, hthinned⟩ := h.exists_of_mem hn'
  obtain ⟨halike, hshown⟩ := hthinned.alike (hnames n hn)
  rw [carries_alike id halike] at hcarries
  rw [widget?_alike halike (hwell n hn) (hwell' n' hn')]
  exact ((hshown hcarries).widget (hwell n hn)).unique (hfirst.widget hcontent)

end

end Markup

namespace Edit

variable {f : Forest} {root : Node} {id : String}

/-! ## The duplicates -/

/-- All duplicates in a well-formed document are cut out. -/
theorem doomedDuplicates_wellFormed (hf : f.WellFormed) {found : List Element}
    (hfound : elementsById f.chars widgetNames id = .ok found) :
    doomedDuplicates f.chars id = .ok (found.drop 1) := by
  have hclosed : ∀ e ∈ found.drop 1, e.closed = true := fun e he =>
    closed_of_reached e ((chosen_of_elementsById hf (by decide) hfound (.refl _)).reached e (List.mem_of_mem_drop he))
  unfold doomedDuplicates
  rw [hfound]
  exact congrArg Except.ok (List.filter_eq_self.mpr hclosed)

/-- Without the duplicates, the first one is left. -/
theorem spared_duplicates {doc : List Char} {span : Span} {first : Element} {rest : List Element}
    (h : Settled doc widgetNames span (first :: rest)) :
    (first :: rest).filter (Element.spared rest) = [first] := by
  have hspared : first.spared rest = true := by
    refine List.all_eq_true.mpr fun d hd => ?_
    have hbefore := (List.rel_of_pairwise_cons (h.pairwise_precedes not_container_of_mem_widgetNames) hd).1
    obtain ⟨limit, hstands⟩ := h.stands first List.mem_cons_self
    have hlt := hstands.start_lt_stop
    rw [Bool.not_eq_true', decide_eq_false_iff_not]
    rintro ⟨hstart, -⟩
    simp only [Element.span] at hstart
    omega
  rw [List.filter_cons_of_pos hspared, filter_spared_self]

/-- **In what remains one element carries the id.** -/
theorem length_filter_remaining {first : Element} {rest : List Element} (hf : f.WellFormed)
    (hall : elementsById f.chars widgetNames id = .ok (first :: rest)) :
    (((remaining f rest).nodes widgetNames).filter (·.carries id)).length = 1 := by
  have hchosen := chosen_of_elementsById hf (by decide) hall (List.sublist_cons_self first rest)
  obtain ⟨before, left, hbefore, hleft, hspared⟩ := found_spared hf hchosen searchable_of_mem_widgetNames id
  obtain rfl := Except.ok.inj (hall.symm.trans hbefore)
  rw [(shown_elementsById (wellFormed_remaining hf) hleft).length_eq, ← hspared.length_eq,
    spared_duplicates (settled_of_elementsById hall)]
  rfl

/-! ## The widget that stays -/

/-- **What a removal of duplicates makes of a board**: `first` is the first element that carries the id, `g` and `root'`
are what remains of the document and of its dashboard. -/
structure Deduped (f : Forest) (root : Node) (id : String) (first : Node) (count : Nat) (g : Forest) (root' : Node) :
    Prop where
  removed : dedupeWidget f.chars id = .ok (g.chars, count)
  widgets : (Dashboard.parse g.chars).widgets = (root'.gridNodes.filterMap Node.widget?).map root.dress
  wellFormed : ∀ n ∈ root'.gridNodes, n.content.WellFormed
  /-- One element on the grid carries the id, and makes the same widget. -/
  one : ∃ n, root'.gridNodes.filter (·.carries id) = [n] ∧ n.widget? = first.widget?
  others : (root'.gridNodes.filterMap Node.widget?).filter (·.id != id) =
    (root.gridNodes.filterMap Node.widget?).filter (·.id != id)

/-- The duplicates of an orderly board whose groups have ids can be removed. -/
theorem exists_deduped (h : f.IsOrderly root) (hcompact : f.AllTags WrittenTag.Compact)
    (hlacks : Template.Lacks '\x7b' '<' f.chars)
    (hnamed : ∀ n ∈ root.content.nodes ["group"], (n.attrs.text? "id").isSome)
    (hinside : (f.nodes widgetNames).filter (·.carries id) = (root.content.nodes widgetNames).filter (·.carries id))
    {first : Node} {more : List Node}
    (hused : (root.content.nodes widgetNames).filter (·.carries id) = first :: more) :
    ∃ g root', Deduped f root id first more.length g root' := by
  have hall := elementsById_wellFormed searchable_of_mem_widgetNames h.wellFormed id
  generalize (f.reached (searchedNames widgetNames) 0).filter (·.answers widgetNames id) = all at hall
  have hshown := shown_elementsById h.wellFormed hall
  rw [hinside, hused] at hshown
  obtain ⟨e, rest, hfirst, hmore, rfl⟩ := List.forall₂_cons_left_iff.mp hshown
  -- what is kept with the id is shown by the first element, and so makes the same widget
  have hkept : ∀ d ∈ f.reached (searchedNames widgetNames) 0, d ∉ rest → ∀ n : Node, n.Shown f.chars d →
      (n.carries id = true → d ∈ e :: rest) → n.carries id = true → n.Shown f.chars e := by
    intro d hd hnot n hn hfinds hcarries
    rcases List.mem_cons.mp (hfinds hcarries) with rfl | hmem
    · exact hn
    · exact absurd hmem hnot
  have hgone : ∀ n : Node, n.carries id = true → n.carries id = true := fun n hn => hn
  obtain ⟨hremoved, hthinned, root', hroot, hboard, hwidgets⟩ :=
    exists_removed h hcompact hlacks hall (List.sublist_cons_self e rest) hgone hkept
  have hgrid := gridNodes_thinned h hroot
  have hlength : (root'.gridNodes.filter (·.carries id)).length = 1 := by
    have hnone := elsewhere_left (elsewhere_thinned h.outside hthinned) (fun n => name_of_mem_elsewhere)
      (filter_elsewhere_eq_nil h.toIsDashboard hinside)
    rw [length_filter_gridNodes (tidy_thinned h hnamed hroot hboard) hboard.outside hnone,
      length_filter_remaining h.wellFormed hall]
  obtain ⟨n, hn⟩ := List.length_eq_one_iff.mp hlength
  refine ⟨remaining f rest, root', ⟨?removed, hwidgets, fun n => hboard.wellFormed_of_mem, ⟨n, hn, ?same⟩,
    others_left hgrid (fun n => h.name_of_mem) hgone (fun n => h.wellFormed_of_mem)
      fun n => hboard.wellFormed_of_mem⟩⟩
  case removed =>
    unfold dedupeWidget
    rw [doomedDuplicates_wellFormed h.wellFormed hall, List.drop_one, List.tail_cons, hremoved, hmore.length_eq]
  case same =>
    have hmem : n ∈ root'.gridNodes.filter (·.carries id) := hn ▸ List.mem_singleton_self n
    have husedmem : first ∈ (root.content.nodes widgetNames).filter (·.carries id) := hused ▸ List.mem_cons_self
    exact widget?_left hgrid (fun n => h.name_of_mem) (fun n => h.wellFormed_of_mem)
      (fun n => hboard.wellFormed_of_mem) hfirst (wellFormed_of_mem_nodes h.wellFormed_root
        (List.mem_of_mem_filter husedmem)) n (List.mem_of_mem_filter hmem) (List.mem_filter.mp hmem).2

/-- **Of the widgets with one id the first one stays.** On an orderly board without problems, on which no value of an
attribute has superfluous line breaks and no brace stands directly before a tag, let all widgets with the id stand in the
dashboard. Then all but the first one of the document are removed and counted. The dashboard has one widget with the id,
and it is this one, unchanged; the widgets with other ids are the same, in the same order. Before, who looked for the id
got the first one on the grid, where groups come first. That is the one that stays, if a group leads. -/
theorem dedupeWidget_keeps_first (h : f.IsOrderly root) (hproblems : (Dashboard.parse f.chars).problems = [])
    (hcompact : f.AllTags WrittenTag.Compact) (hlacks : Template.Lacks '\x7b' '<' f.chars)
    (hinside : (f.nodes widgetNames).filter (·.carries id) = (root.content.nodes widgetNames).filter (·.carries id))
    {first : Node} {more : List Node}
    (hused : (root.content.nodes widgetNames).filter (·.carries id) = first :: more) :
    ∃ out kept, dedupeWidget f.chars id = .ok (out, more.length) ∧
      first.widget?.map root.dress = some kept ∧
      (Dashboard.parse out).widgets.filter (·.id == id) = [kept] ∧
      (Dashboard.parse out).widgets.filter (·.id != id) = (Dashboard.parse f.chars).widgets.filter (·.id != id) ∧
      (Dashboard.parse f.chars).widget? id =
        ((root.grouped ++ root.ungrouped).find? (·.carries id)).bind (fun n => n.widget?.map root.dress) ∧
      (root.Leads id → (Dashboard.parse f.chars).widget? id = some kept) := by
  have htidy := h.tidy hproblems
  obtain ⟨g, root', hdeduped⟩ := exists_deduped h hcompact hlacks htidy.named hinside hused
  have hmem : first ∈ (root.content.nodes widgetNames).filter (·.carries id) := hused ▸ List.mem_cons_self
  obtain ⟨w, hw⟩ := Option.isSome_iff_exists.mp
    (isSome_widget?_of_problems htidy hproblems first (List.mem_of_mem_filter hmem))
  obtain ⟨n, hn, hsame⟩ := hdeduped.one
  have hkept : first.widget?.map root.dress = some (root.dress w) := by
    rw [hw]
    rfl
  have hbefore := widget?_eq h hproblems id
  refine ⟨g.chars, root.dress w, hdeduped.removed, hkept, ?one, ?others, hbefore, fun hleads => ?shown⟩
  case one =>
    rw [hdeduped.widgets, filter_dress root (· == id), filterMap_carries hdeduped.wellFormed, hn,
      List.filterMap_cons_some (hsame.trans hw)]
    rfl
  case others =>
    rw [hdeduped.widgets, h.widgets_of_sections h.sections, filter_dress root (· != id), filter_dress root (· != id),
      hdeduped.others]
  case shown =>
    rw [hbefore, find?_of_leads h.inside hleads, ← List.head?_filter, hused]
    exact hkept

/-- Key figures with one id in a group and behind it, and a line chart. -/
def repeatedGrid : Forest :=
  (element "group" [⟨"id", "g"⟩] (element "kpi" [⟨"id", "k"⟩, ⟨"title", "A"⟩] .nil)).append
    ((element "kpi" [⟨"id", "k"⟩, ⟨"title", "B"⟩] .nil).append
      (.text "\n".toList (element "widget" [⟨"id", "b"⟩, ⟨"type", "line"⟩] .nil)))

theorem isOrderly_repeatedGrid : (board repeatedGrid).IsOrderly (boardRoot repeatedGrid) where
  toIsDashboard := isDashboard_board (by decide +kernel) (by decide +kernel) (by decide +kernel)
  front := by decide +kernel
  sections := by decide +kernel
  canvas := by decide +kernel
  styles := by decide +kernel

/-- The one in the group stays, which is the first one of both. -/
theorem dedupeWidget_keeps_first_repeatedGrid :
    (board repeatedGrid).IsOrderly (boardRoot repeatedGrid) ∧
      (Dashboard.parse (board repeatedGrid).chars).problems = [] ∧
      (board repeatedGrid).AllTags WrittenTag.Compact ∧ Template.Lacks '\x7b' '<' (board repeatedGrid).chars ∧
      (boardRoot repeatedGrid).Leads "k" ∧
      ∃ out kept, dedupeWidget (board repeatedGrid).chars "k" = .ok (out, 1) ∧ kept.title = some "A" ∧
        (Dashboard.parse out).widgets.filter (·.id == "k") = [kept] ∧
        (Dashboard.parse (board repeatedGrid).chars).widget? "k" = some kept := by
  have hproblems : (Dashboard.parse (board repeatedGrid).chars).problems = [] :=
    List.length_eq_zero_iff.mp (by decide +kernel)
  have hcompact : (board repeatedGrid).AllTags WrittenTag.Compact := by decide +kernel
  have hlacks : Template.Lacks '\x7b' '<' (board repeatedGrid).chars := by decide +kernel
  have hleads : (boardRoot repeatedGrid).Leads "k" := by decide +kernel
  obtain ⟨out, kept, hremoved, hkept, hone, -, -, hshown⟩ :=
    @dedupeWidget_keeps_first _ _ "k" isOrderly_repeatedGrid hproblems hcompact hlacks (by rfl)
      ⟨"kpi", [⟨"id", "k"⟩, ⟨"title", "A"⟩], .nil⟩ [⟨"kpi", [⟨"id", "k"⟩, ⟨"title", "B"⟩], .nil⟩] (by decide +kernel)
  have htitle : (((⟨"kpi", [⟨"id", "k"⟩, ⟨"title", "A"⟩], .nil⟩ : Node).widget?.map
      (boardRoot repeatedGrid).dress).map Widget.title) = some (some "A") := by
    decide +kernel
  rw [hkept] at htitle
  exact ⟨isOrderly_repeatedGrid, hproblems, hcompact, hlacks, hleads, out, kept, hremoved, Option.some.inj htitle, hone,
    hshown hleads⟩

/-- A key figure with a title, and behind it a group on a grid. -/
def shadowedGrid (members : String) : List Char :=
  ("<dashboard layout-mode=\"grid\"><kpi id=\"k\" title=\"A\"/><group id=\"g\">" ++ members ++
    "</group></dashboard>").toList

/-- **The widget in the group is the one that is shown, and it is removed.** -/
theorem dedupeWidget_hides_shown :
    (Dashboard.parse (shadowedGrid "<kpi id=\"k\" title=\"B\"/>")).isValid = true ∧
      dedupeWidget (shadowedGrid "<kpi id=\"k\" title=\"B\"/>") "k" = .ok (shadowedGrid "", 1) ∧
      ((Dashboard.parse (shadowedGrid "<kpi id=\"k\" title=\"B\"/>")).widget? "k").map Widget.title = some (some "B") ∧
      (Dashboard.parse (shadowedGrid "")).widgets.map Widget.title = [some "A"] ∧
      (Dashboard.parse (shadowedGrid "")).widget? "k" ≠
        (Dashboard.parse (shadowedGrid "<kpi id=\"k\" title=\"B\"/>")).widget? "k" := by
  obtain ⟨hvalid, hbefore⟩ : (Dashboard.parse (shadowedGrid "<kpi id=\"k\" title=\"B\"/>")).isValid = true ∧
      ((Dashboard.parse (shadowedGrid "<kpi id=\"k\" title=\"B\"/>")).widget? "k").map Widget.title = some (some "B") := by
    decide +kernel
  obtain ⟨htitles, hafter⟩ : (Dashboard.parse (shadowedGrid "")).widgets.map Widget.title = [some "A"] ∧
      ((Dashboard.parse (shadowedGrid "")).widget? "k").map Widget.title = some (some "A") := by
    decide +kernel
  refine ⟨hvalid, by decide +kernel, hbefore, htitles, fun hsame => ?_⟩
  rw [hsame, hbefore] at hafter
  exact absurd hafter (by decide)

end Edit

end DashboardMarkup
