import DashboardMarkup.Proofs.Document.Topics
import DashboardMarkup.Proofs.Edit.RootTag

/-!
# A period that is set is the one that is read

The edit writes a period into three attributes of the root. The reader knows more spellings of them, passes over
blank ones, reads a name that begins with `custom:` as a range in itself, and goes to a date picker where the root
says nothing. What has been written comes before all of that, whatever the root said so far.

* `DateRange.Proper`: a period that can be set, and `DateRange.settled`: what it is read as.
* `read_ofPeriod`: attributes in which a period has been set give it, without a note.
* `setDashboard_sets_period`: so does a well-formed document that begins with a tag, and the other attributes of its
  root stay as they are. Behind a text the root is not read (`setDashboard_period_behind_text`).
-/

namespace DashboardMarkup

open Markup Template Text

/-- A date and nothing else. -/
def IsDay (s : String) : Prop :=
  isDate s.toList = true ∧ trimmed s = s

instance (s : String) : Decidable (IsDay s) :=
  inferInstanceAs (Decidable (_ ∧ _))

/-- The name of a preset: one that is not read as a custom range, and does not begin the mark of a template. -/
structure IsPreset (kind : String) : Prop where
  solid : Solid kind
  ne_custom : kind ≠ "custom"
  no_dates : ¬"custom:".toList <+: kind.toList
  no_brace : '\x7b' ∉ kind.toList

instance (kind : String) : Decidable (IsPreset kind) :=
  decidable_of_iff (Solid kind ∧ kind ≠ "custom" ∧ ¬"custom:".toList <+: kind.toList ∧ '\x7b' ∉ kind.toList)
    ⟨fun ⟨h1, h2, h3, h4⟩ => ⟨h1, h2, h3, h4⟩, fun h => ⟨h.1, h.2, h.3, h.4⟩⟩

/-- A period that can be set: two dates, or a preset with any dates. -/
inductive DateRange.Proper : DateRange → Prop
  | custom {start stop : String} : IsDay start → IsDay stop → Proper ⟨"custom", some start, some stop⟩
  | preset {kind : String} (start stop : Option String) : IsPreset kind → Proper ⟨kind, start, stop⟩

/-- What a period is read as: a preset has no dates. -/
def DateRange.settled (r : DateRange) : DateRange :=
  if r.kind == "custom" then r else { kind := r.kind }

theorem IsPreset.settled {kind : String} (h : IsPreset kind) (start stop : Option String) :
    DateRange.settled ⟨kind, start, stop⟩ = { kind } := by
  unfold DateRange.settled
  rw [if_neg (by simpa using h.ne_custom)]

/-- Dates are made of digits and hyphens. -/
theorem IsDay.chars {s : String} (h : IsDay s) : ∀ c ∈ s.toList, c.isDigit = true ∨ c = '-' := by
  obtain ⟨hdate, htrimmed⟩ := h
  have htrim : trim s.toList = s.toList := by
    have hlist := congrArg String.toList htrimmed
    unfold trimmed at hlist
    rwa [String.toList_ofList] at hlist
  unfold isDate at hdate
  rw [htrim] at hdate
  split at hdate
  · next hlist =>
    rw [hlist]
    simp only [List.all_cons, List.all_nil, Bool.and_eq_true, and_true] at hdate
    simp [hdate]
  · exact absurd hdate (by simp)

theorem IsDay.untagged {s : String} (h : IsDay s) : Untagged s.toList :=
  untagged_of_not_mem fun hmem => absurd (h.chars _ hmem) (by decide)

theorem IsDay.ne_empty {s : String} (h : IsDay s) : s ≠ "" := by
  rintro rfl
  exact absurd h (by decide)

theorem IsDay.solid {s : String} (h : IsDay s) : Solid s :=
  ⟨h.2, h.ne_empty⟩

namespace Edit

/-! ## The changes -/

/-- The attributes that a period is written into. -/
def periodNames : List String :=
  ["date-type", "date-start", "date-end"]

theorem ofPeriod_custom {start stop : String} (hstart : start ≠ "") (hstop : stop ≠ "") :
    DashboardChange.ofPeriod ⟨"custom", some start, some stop⟩ =
      [.set "date-type" "custom", .set "date-start" start, .set "date-end" stop] := by
  simp [DashboardChange.ofPeriod, change?, nonempty?, hstart, hstop]

theorem ofPeriod_preset {kind : String} (hcustom : kind ≠ "custom") (hne : kind ≠ "")
    (start stop : Option String) : DashboardChange.ofPeriod ⟨kind, start, stop⟩ =
      [.set "date-type" kind, .drop "date-start", .drop "date-end"] := by
  simp [DashboardChange.ofPeriod, hcustom, hne]

theorem name_mem_ofPeriod {r : DateRange} (h : r.Proper) :
    ∀ c ∈ DashboardChange.ofPeriod r, c.name ∈ periodNames := by
  cases h with
  | custom hstart hstop =>
    rw [ofPeriod_custom hstart.ne_empty hstop.ne_empty]
    simp [Attributes.Change.name, periodNames]
  | preset start stop hkind =>
    rw [ofPeriod_preset hkind.ne_custom hkind.solid.2]
    simp [Attributes.Change.name, periodNames]

theorem writable_ofPeriod {r : DateRange} (h : r.Proper) : ∀ c ∈ DashboardChange.ofPeriod r, WritableChange c := by
  cases h with
  | custom hstart hstop =>
    rw [ofPeriod_custom hstart.ne_empty hstop.ne_empty]
    simp only [List.forall_mem_cons, List.not_mem_nil, false_imp_iff, implies_true, and_true, WritableChange]
    exact ⟨by decide, ⟨by decide, by decide, hstart.untagged⟩, by decide, by decide, hstop.untagged⟩
  | preset start stop hkind =>
    rw [ofPeriod_preset hkind.ne_custom hkind.solid.2]
    simp only [List.forall_mem_cons, List.not_mem_nil, false_imp_iff, implies_true, and_true, WritableChange]
    exact ⟨by decide, by decide, untagged_of_not_mem hkind.no_brace⟩

/-! ## The reader -/

/-- **Attributes in which a period has been set give it**, whatever they said before and whatever the heading says. -/
theorem read_ofPeriod {r : DateRange} (h : r.Proper) (attrs : Attributes) (start : Nat)
    (heading : Option Heading) : DateRange.read (attrs.applyAll (DashboardChange.ofPeriod r)) start heading =
      pure (some r.settled) := by
  cases h with
  | @custom first last hfirst hlast =>
    rw [ofPeriod_custom hfirst.ne_empty hlast.ne_empty]
    generalize hset : attrs.applyAll [.set "date-type" "custom", .set "date-start" first, .set "date-end" last] = given
    have hkind : given.get? "date-type" = some "custom" :=
      hset ▸ Attributes.get?_applyAll_set attrs [] (by simp [Attributes.Change.name])
    have hstart : given.get? "date-start" = some first :=
      hset ▸ Attributes.get?_applyAll_set attrs [.set "date-type" "custom"] (by simp [Attributes.Change.name])
    have hend : given.get? "date-end" = some last :=
      hset ▸ Attributes.get?_applyAll_set attrs [.set "date-type" "custom", .set "date-start" first]
        (by simp [Attributes.Change.name])
    have hdates : DateRange.custom? first last = some ⟨"custom", some first, some last⟩ := by
      unfold DateRange.custom?
      rw [hfirst.1, hlast.1, hfirst.2, hlast.2]
      rfl
    unfold DateRange.read
    rw [Attributes.first?_of_get? hkind (by decide)]
    unfold DateRange.ofAttributes
    rw [Attributes.first?_of_get? hstart hfirst.solid, Attributes.first?_of_get? hend hlast.solid]
    simp only [Option.bind_eq_bind, Option.bind_some, hdates]
    rfl
  | @preset kind first last hpreset =>
    have hkind : (attrs.applyAll [.set "date-type" kind, .drop "date-start", .drop "date-end"]).get? "date-type" =
        some kind := Attributes.get?_applyAll_set attrs [] (by simp [Attributes.Change.name])
    have hname : stripPrefix? "custom:".toList kind.toList = none :=
      Option.eq_none_iff_forall_ne_some.mpr fun rest hrest =>
        hpreset.no_dates ⟨rest, (stripPrefix?_eq_some.mp hrest).symm⟩
    rw [ofPeriod_preset hpreset.ne_custom hpreset.solid.2, hpreset.settled]
    unfold DateRange.read
    rw [Attributes.first?_of_get? hkind hpreset.solid]
    unfold DateRange.ofAttributes
    simp only [hname]
    rw [if_neg (by simpa using hpreset.ne_custom)]

/-! ## The document -/

/-- **A period that is set is the one that is read.** In a well-formed document that begins with a tag it is set on
the root, whatever the root said so far. The document then has the period, without a problem about it, and the other
attributes of the root are as before. -/
theorem setDashboard_sets_period {f : Forest} (hf : f.WellFormed) (huntagged : Untagged f.chars)
    (hmarkup : Dashboard.isMarkup f.chars = true) {e : Element} (hroot : rootElement f.chars = .ok (some e))
    {r : DateRange} (hr : r.Proper) :
    ∃ doc' e', setDashboard f.chars { period := some r } = .ok doc' ∧
      (Dashboard.parse doc').period = some r.settled ∧
      (∀ p ∈ (Dashboard.parse doc').problems, p.cause.topic ≠ .period) ∧
      rootElement doc' = .ok (some e') ∧ e'.attrs.besides periodNames = e.attrs.besides periodNames := by
  have hchanges : DashboardChange.changes { period := some r } = DashboardChange.ofPeriod r := rfl
  obtain ⟨doc', e', d, notes, hset, hroot', hattrs, hfind, hread, hparse⟩ :=
    exists_setDashboard hf huntagged hmarkup hroot { period := some r } (writable_ofPeriod hr)
  rw [hchanges] at hattrs hfind
  obtain ⟨root, heading, first, hfound, hperiod, hnotes⟩ := Dashboard.period_of_readDocument hread
  obtain rfl := Except.ok.inj (hfind.symm.trans hfound)
  obtain ⟨hsome, rfl⟩ := Reading.pure_eq_ok.mp ((read_ofPeriod hr e.attrs e'.start heading).symm.trans hperiod)
  refine ⟨doc', e', hset, ?_, ?_, hroot', ?_⟩
  · rw [hparse]
    exact hsome.symm
  · rw [hparse]
    intro p hp htopic
    obtain ⟨note, hnote, rfl⟩ := List.mem_map.mp hp
    exact absurd (hnotes note hnote htopic) List.not_mem_nil
  · rw [hattrs, Attributes.besides_applyAll (name_mem_ofPeriod hr)]

/-- A root that names its period twice, in two spellings and with blanks. -/
def datedBoard : Forest :=
  .paired ⟨"dashboard".toList, [⟨[' '], "dateType".toList, [], [], "last7".toList⟩,
      ⟨[' '], "date-type".toList, [], [], "custom".toList⟩, ⟨[' '], "title".toList, [], [], "a &lt; b".toList⟩,
      ⟨[' '], "date-type".toList, [], [], "  ".toList⟩, ⟨[' '], "dateEnd".toList, [], [], "x".toList⟩], []⟩
    (.text "\n".toList .nil) ⟨"dashboard".toList, []⟩ .nil

theorem setDashboard_sets_period_dated :
    datedBoard.chars = ("<dashboard dateType=\"last7\" date-type=\"custom\" title=\"a &lt; b\" date-type=\"  \" " ++
        "dateEnd=\"x\">\n</dashboard>").toList ∧
      datedBoard.WellFormed ∧ Untagged datedBoard.chars ∧ Dashboard.isMarkup datedBoard.chars = true ∧
      DateRange.Proper ⟨"custom", some "2024-01-01", some "2024-03-31"⟩ ∧
      ∃ e, rootElement datedBoard.chars = .ok (some e) ∧ ∃ doc' e',
        setDashboard datedBoard.chars { period := some ⟨"custom", some "2024-01-01", some "2024-03-31"⟩ } = .ok doc' ∧
          (Dashboard.parse doc').period = some ⟨"custom", some "2024-01-01", some "2024-03-31"⟩ ∧
          (∀ p ∈ (Dashboard.parse doc').problems, p.cause.topic ≠ .period) ∧
          rootElement doc' = .ok (some e') ∧ e'.attrs.besides periodNames = e.attrs.besides periodNames := by
  have hwell : datedBoard.WellFormed := by decide
  have huntagged : Untagged datedBoard.chars := by decide +kernel
  have hproper : DateRange.Proper ⟨"custom", some "2024-01-01", some "2024-03-31"⟩ :=
    .custom (by decide) (by decide)
  have hroot := rootElement_forest hwell
  exact ⟨by decide, hwell, huntagged, by decide, hproper, _, hroot,
    setDashboard_sets_period hwell huntagged (by decide) hroot hproper⟩

/-- A root behind a text. -/
def boardBehindText : Forest :=
  .text ['x'] (.paired ⟨"dashboard".toList, [], []⟩ .nil ⟨"dashboard".toList, []⟩ .nil)

/-- **Behind a text the period is set on the root, but not read**: the document is no markup, before and after. -/
theorem setDashboard_period_behind_text :
    boardBehindText.chars = "x<dashboard></dashboard>".toList ∧ boardBehindText.WellFormed ∧
      Untagged boardBehindText.chars ∧ (∃ e, rootElement boardBehindText.chars = .ok (some e)) ∧
      (∀ p ∈ (Dashboard.parse boardBehindText.chars).problems, p.cause.kind ≠ .unreadable) ∧
      DateRange.Proper ⟨"last30", none, none⟩ ∧
      setDashboard boardBehindText.chars { period := some ⟨"last30", none, none⟩ } =
        .ok "x<dashboard date-type=\"last30\"></dashboard>".toList ∧
      (Dashboard.parse "x<dashboard date-type=\"last30\"></dashboard>".toList).period = none := by
  have hwell : boardBehindText.WellFormed := by decide
  have hroot : rootElement boardBehindText.chars = .ok (some ⟨"dashboard", 1, 12, [], .paired ⟨12, 12⟩ 24⟩) :=
    rootElement_forest hwell
  have hnone : ∀ text : List Char, Untagged text → Dashboard.isMarkup text = false →
      Dashboard.parse text = Dashboard.ofProblem ⟨.notMarkup, Position.origin⟩ := fun text huntagged hmarkup => by
    unfold Dashboard.parse Dashboard.read Dashboard.ofDocument
    rw [resolve_untagged huntagged, hmarkup]
    rfl
  refine ⟨by decide, hwell, by decide, ⟨_, hroot⟩, ?_, .preset _ _ (by decide), ?_, ?_⟩
  · rw [hnone _ (by decide) (by decide)]
    decide
  · rw [setDashboard_of_root hroot]
    exact Splice.carryOut_single ['x'] "<dashboard>".toList "</dashboard>".toList
      "<dashboard date-type=\"last30\">".toList
  · rw [hnone _ (by decide) (by decide)]
    rfl

end Edit

end DashboardMarkup
