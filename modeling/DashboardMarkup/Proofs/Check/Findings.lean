import DashboardMarkup.Check.Finding
import Mathlib.Data.List.Forall2

/-!
# What is found about a dashboard

The findings about a dashboard are those of four rules, one rule after another. They are told by the dashboard alone,
whether or not a text describes it: an id is found once, however many widgets have it, where its second widget stands;
the other rules go through the widgets or groups and make one finding for each that deserves it.

* `repeats_secondUses`: the ids that are found, each once, in the order of their second uses.
* `Reports`: one finding for each of some things that deserve it, in their order.
* `reports_danglingRows`, `reports_emptyGroups`, `reports_missingData`: the things that deserve one.
* `findings_by_rule`: all of it, rule by rule.
-/

namespace DashboardMarkup

/-! ## Ids in use more than once -/

/-- An id stands at a place behind exactly one use of it, of those before the list too. -/
def SecondUse (before ids : List String) (place : Nat) (id : String) : Prop :=
  ids[place]? = some id ∧ before.count id + (ids.take place).count id = 1

/-- **The ids that repeat in a list**: each once, in the order of their second uses. -/
structure Repeats (ids repeated : List String) : Prop where
  nodup : repeated.Nodup
  mem_iff : ∀ id, id ∈ repeated ↔ 2 ≤ ids.count id
  order : ∃ places : List Nat, places.Pairwise (· < ·) ∧ List.Forall₂ (SecondUse [] ids) places repeated

theorem secondUse_cons_iff {before ids : List String} {other id : String} {place : Nat} :
    SecondUse before (other :: ids) (place + 1) id ↔ SecondUse (other :: before) ids place id := by
  unfold SecondUse
  rw [List.getElem?_cons_succ, List.take_succ_cons, List.count_cons, List.count_cons]
  refine and_congr_right fun _ => ?_
  omega

/-- An id is found if its second use is still to come. -/
theorem mem_secondUses_iff {before ids : List String} {id : String} :
    id ∈ secondUses before ids ↔ before.count id ≤ 1 ∧ 2 ≤ before.count id + ids.count id := by
  induction ids generalizing before with
  | nil =>
    simp only [secondUses, List.not_mem_nil, List.count_nil, false_iff]
    omega
  | cons other ids ih =>
    rw [secondUses]
    by_cases hsame : other = id
    · subst hsame
      split
      · next hone =>
        refine iff_of_true List.mem_cons_self ?_
        rw [List.count_cons_self]
        omega
      · next hone =>
        rw [ih, List.count_cons_self, List.count_cons_self]
        omega
    · split
      · rw [List.mem_cons, or_iff_right (Ne.symm hsame), ih, List.count_cons_of_ne hsame, List.count_cons_of_ne hsame]
      · rw [ih, List.count_cons_of_ne hsame, List.count_cons_of_ne hsame]

theorem nodup_secondUses (before ids : List String) : (secondUses before ids).Nodup := by
  induction ids generalizing before with
  | nil => exact List.nodup_nil
  | cons id ids ih =>
    rw [secondUses]
    split
    · next hone =>
      -- behind its second use an id is not found again
      refine List.nodup_cons.mpr ⟨fun hmem => ?_, ih (id :: before)⟩
      have hfew := (mem_secondUses_iff.mp hmem).1
      rw [List.count_cons_self] at hfew
      omega
    · exact ih (id :: before)

theorem exists_places_secondUses (before ids : List String) :
    ∃ places : List Nat, places.Pairwise (· < ·) ∧
      List.Forall₂ (SecondUse before ids) places (secondUses before ids) := by
  induction ids generalizing before with
  | nil => exact ⟨[], List.Pairwise.nil, .nil⟩
  | cons id ids ih =>
    obtain ⟨places, hincreasing, hplaces⟩ := ih (id :: before)
    have hlater : List.Forall₂ (SecondUse before (id :: ids)) (places.map (· + 1)) (secondUses (id :: before) ids) :=
      List.forall₂_map_left_iff.mpr (hplaces.imp fun _ _ => secondUse_cons_iff.mpr)
    have hshifted : (places.map (· + 1)).Pairwise (· < ·) :=
      List.pairwise_map.mpr (hincreasing.imp fun hlt => Nat.add_lt_add_right hlt 1)
    rw [secondUses]
    split
    · next hone =>
      refine ⟨0 :: places.map (· + 1), List.pairwise_cons.mpr ⟨fun place hplace => ?_, hshifted⟩,
        .cons ⟨rfl, by simpa using hone⟩ hlater⟩
      obtain ⟨n, -, rfl⟩ := List.mem_map.mp hplace
      exact Nat.succ_pos n
    · exact ⟨_, hshifted, hlater⟩

/-- **The ids that are found are those that repeat.** -/
theorem repeats_secondUses (ids : List String) : Repeats ids (secondUses [] ids) where
  nodup := nodup_secondUses [] ids
  mem_iff id := by
    rw [mem_secondUses_iff]
    simp
  order := exists_places_secondUses [] ids

example : secondUses [] ["a", "b", "b", "a", "b", "c"] = ["b", "a"] := by decide

/-! ## One finding each -/

section

variable {α : Type} {deserves : α → Prop} {finding : α → Finding}

/-- **One finding for each of some things that deserve it**, in their order, and no other. -/
inductive Reports (deserves : α → Prop) (finding : α → Finding) : List α → List Finding → Prop
  | nil : Reports deserves finding [] []
  | report {a : α} {things : List α} {findings : List Finding} : deserves a →
      Reports deserves finding things findings → Reports deserves finding (a :: things) (finding a :: findings)
  | pass {a : α} {things : List α} {findings : List Finding} : ¬deserves a →
      Reports deserves finding things findings → Reports deserves finding (a :: things) findings

theorem Reports.rule {things : List α} {findings : List Finding} {rule : String}
    (h : Reports deserves finding things findings) (hrule : ∀ a, (finding a).rule = rule) :
    ∀ f ∈ findings, f.rule = rule := by
  induction h with
  | nil => exact fun f hf => absurd hf List.not_mem_nil
  | report _ _ ih => exact List.forall_mem_cons.mpr ⟨hrule _, ih⟩
  | pass _ _ ih => exact ih

/-- A rule that looks at each thing on its own makes one finding each. -/
theorem reports_filterMap {look : α → Option Finding} {things : List α}
    (hreport : ∀ a ∈ things, deserves a → look a = some (finding a))
    (hpass : ∀ a ∈ things, ¬deserves a → look a = none) :
    Reports deserves finding things (things.filterMap look) := by
  induction things with
  | nil => exact .nil
  | cons a things ih =>
    obtain ⟨hreport, hreports⟩ := List.forall_mem_cons.mp hreport
    obtain ⟨hpass, hpasses⟩ := List.forall_mem_cons.mp hpass
    by_cases ha : deserves a
    · rw [List.filterMap_cons_some (hreport ha)]
      exact .report ha (ih hreports hpasses)
    · rw [List.filterMap_cons_none (hpass ha)]
      exact .pass ha (ih hreports hpasses)

end

namespace Dashboard

variable {d : Dashboard}

/-- **A widget dangles**: it stands in a row that is a key neither of the sections nor of the rows of a layout by
rows. -/
def Dangles (d : Dashboard) (w : Widget) : Prop :=
  ∃ row, w.row = some row ∧ row ∉ d.canvas.sections.keys ∧
    ∀ rows, d.canvas.layout = .rows rows → row ∉ rows.keys

/-- **A widget lacks data**: it is a key figure or a chart, and all fields of its data source are empty if it has one
at all. -/
def LacksData (w : Widget) : Prop :=
  (w.kind = .kpi ∨ ∃ kind, w.kind = .chart kind) ∧ ∀ ds, w.dataSource = some ds → ds = {}

/-- The groups of a dashboard on a grid; in other layouts there are none. -/
def gridGroups (d : Dashboard) : List Group :=
  match d.canvas.layout with
  | .grid _ _ _ groups => groups
  | _ => []

theorem declaresRow_iff {row : String} :
    d.declaresRow row = true ↔
      row ∈ d.canvas.sections.keys ∨ ∃ rows, d.canvas.layout = .rows rows ∧ row ∈ rows.keys := by
  unfold declaresRow
  rw [Bool.or_eq_true, Keyed.has_iff]
  refine or_congr_right ?_
  cases hlayout : d.canvas.layout with
  | rows rows => simp [Layout.rows?, Keyed.has_iff]
  | grid columns gapX gapY groups => simp [Layout.rows?]
  | columns columns template inner => simp [Layout.rows?]

theorem dangles_iff {w : Widget} {row : String} (hrow : w.row = some row) :
    d.Dangles w ↔ d.declaresRow row = false := by
  rw [← Bool.not_eq_true, declaresRow_iff, not_or]
  unfold Dangles
  simp [hrow]

/-- **The dangling rows**, one for each widget that dangles. -/
theorem reports_danglingRows (d : Dashboard) :
    Reports d.Dangles (fun w => .danglingRow w.id (w.row.getD "")) d.widgets d.danglingRows := by
  refine reports_filterMap (fun w _ hdangles => ?_) (fun w _ hdeclared => ?_)
  · obtain ⟨row, hrow, -⟩ := id hdangles
    rw [dangles_iff hrow] at hdangles
    simp [hrow, hdangles]
  · cases hrow : w.row with
    | none => rfl
    | some row =>
      rw [dangles_iff hrow, Bool.not_eq_false] at hdeclared
      simp [hdeclared]

/-- **The groups without widgets**, on a grid. -/
theorem reports_emptyGroups (d : Dashboard) :
    Reports (fun g : Group => g.children = []) (fun g => .emptyGroup g.id) d.gridGroups d.emptyGroups := by
  have hgroups : d.canvas.layout.groups?.getD [] = d.gridGroups := by
    unfold gridGroups
    cases d.canvas.layout <;> rfl
  unfold emptyGroups
  rw [hgroups]
  exact reports_filterMap (fun g _ hnone => by simp [hnone]) (fun g _ hsome => by simp [hsome])

theorem showsData_iff {kind : WidgetKind} : kind.showsData = true ↔ kind = .kpi ∨ ∃ c, kind = .chart c := by
  cases kind <;> simp [WidgetKind.showsData, WidgetKind.isChart]

theorem hasData_eq_false_iff {w : Widget} : hasData w = false ↔ ∀ ds, w.dataSource = some ds → ds = {} := by
  unfold hasData DataSource.isEmpty
  cases w.dataSource with
  | none => simp
  | some ds => simp

theorem lacksData_iff {w : Widget} : LacksData w ↔ (w.kind.showsData && !hasData w) = true := by
  rw [Bool.and_eq_true, Bool.not_eq_true', showsData_iff, hasData_eq_false_iff]
  rfl

/-- **The key figures and charts without data**, one finding each. -/
theorem reports_missingData (d : Dashboard) :
    Reports LacksData (fun w => .missingData w.kind w.id) d.widgets d.missingData :=
  reports_filterMap (fun _ _ hlacks => if_pos (lacksData_iff.mp hlacks))
    (fun _ _ hfed => if_neg fun h => hfed (lacksData_iff.mpr h))

/-! ## Rule by rule -/

/-- The findings of one rule. -/
def findingsOf (d : Dashboard) (rule : String) : List Finding :=
  d.findings.filter (·.rule == rule)

theorem filter_rule {findings : List Finding} {rule : String} (h : ∀ f ∈ findings, f.rule = rule) (asked : String) :
    findings.filter (·.rule == asked) = if rule = asked then findings else [] := by
  split
  · next hsame => exact List.filter_eq_self.mpr fun f hf => by simp [h f hf, hsame]
  · next hother => exact List.filter_eq_nil_iff.mpr fun f hf => by simp [h f hf, hother]

/-- What a rule finds, of what the four rules find. -/
theorem findingsOf_eq (d : Dashboard) (asked : String) :
    d.findingsOf asked =
      (if "duplicate-id" = asked then d.repeatedIds else []) ++
        ((if "dangling-row" = asked then d.danglingRows else []) ++
          ((if "empty-group" = asked then d.emptyGroups else []) ++
            if "missing-datasource" = asked then d.missingData else [])) := by
  have hrepeated : ∀ f ∈ d.repeatedIds, f.rule = "duplicate-id" := by
    intro f hf
    obtain ⟨id, -, rfl⟩ := List.mem_map.mp hf
    rfl
  have hdangling := (reports_danglingRows d).rule fun _ => rfl
  have hempty := (reports_emptyGroups d).rule fun _ => rfl
  have hmissing := (reports_missingData d).rule fun _ => rfl
  unfold findingsOf findings
  rw [List.filter_append, List.filter_append, List.filter_append, filter_rule hrepeated, filter_rule hdangling,
    filter_rule hempty, filter_rule hmissing]

/-- **The findings about a dashboard, whatever it is**: each id that repeats once, in the order of their second uses;
one finding for each widget that dangles, for each group of a grid without children, and for each key figure or chart
without data; one rule after another, and no other finding. -/
theorem findings_by_rule (d : Dashboard) :
    d.findings =
        d.findingsOf "duplicate-id" ++ (d.findingsOf "dangling-row" ++
          (d.findingsOf "empty-group" ++ d.findingsOf "missing-datasource")) ∧
      (∃ ids, d.findingsOf "duplicate-id" = ids.map .repeatedId ∧ Repeats (d.widgets.map Widget.id) ids) ∧
      Reports d.Dangles (fun w => .danglingRow w.id (w.row.getD "")) d.widgets (d.findingsOf "dangling-row") ∧
      Reports (fun g : Group => g.children = []) (fun g => .emptyGroup g.id) d.gridGroups
        (d.findingsOf "empty-group") ∧
      Reports LacksData (fun w => .missingData w.kind w.id) d.widgets (d.findingsOf "missing-datasource") := by
  have hrepeated : d.findingsOf "duplicate-id" = d.repeatedIds := by simp [findingsOf_eq]
  have hdangling : d.findingsOf "dangling-row" = d.danglingRows := by simp [findingsOf_eq]
  have hempty : d.findingsOf "empty-group" = d.emptyGroups := by simp [findingsOf_eq]
  have hmissing : d.findingsOf "missing-datasource" = d.missingData := by simp [findingsOf_eq]
  rw [hrepeated, hdangling, hempty, hmissing]
  exact ⟨rfl, ⟨_, rfl, repeats_secondUses _⟩, reports_danglingRows d, reports_emptyGroups d, reports_missingData d⟩

end Dashboard

end DashboardMarkup
