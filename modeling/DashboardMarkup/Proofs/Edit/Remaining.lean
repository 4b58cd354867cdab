import DashboardMarkup.Proofs.Edit.Census
import DashboardMarkup.Proofs.Edit.Removal
import DashboardMarkup.Proofs.Markup.Squeezed

/-!
# What remains after a removal of widgets

A removal cuts widgets out of the text with the lines that they have to themselves, and then leaves out superfluous
line breaks of the whole document. In a well-formed document the text that remains is that of the same tree without
the widgets: the searches by id find in it what they found before, and no widget with the id.

* `isLeft_cuttings`: what the cuts spare, said with the widgets alone.
* `wellFormed_remaining`, `chars_remaining`, `reached_spared`: the tree that remains, its text and its elements.
* `removeWidget_complete`: the removal of all widgets with an id.
-/

namespace DashboardMarkup

open Text Markup

namespace Markup

variable {names : List String}

/-- An element is another one or lies inside it. -/
def Element.LiesIn (e d : Element) : Prop :=
  d.span.Takes e.start e.stop

instance (e d : Element) : Decidable (e.LiesIn d) :=
  inferInstanceAs (Decidable (_ ∧ _))

/-- Whether an element lies in none of some others. -/
def Element.spared (found : List Element) (e : Element) : Bool :=
  found.all fun d => !decide (e.LiesIn d)

theorem not_mem_of_spared {found : List Element} {e : Element} (h : e.spared found = true) : e ∉ found := by
  intro he
  have hself := List.all_eq_true.mp h e he
  rw [Bool.not_eq_true', decide_eq_false_iff_not] at hself
  exact hself ⟨Nat.le_refl _, Nat.le_refl _⟩

theorem filter_spared_self (found : List Element) : found.filter (Element.spared found) = [] :=
  List.filter_eq_nil_iff.mpr fun _ he hspared => not_mem_of_spared hspared he

/-- Every element of a tree is closed. -/
theorem closed_of_reached {f : Forest} {offset : Nat} : ∀ e ∈ f.reached names offset, e.closed = true := by
  induction f generalizing offset with
  | nil => simp [Forest.reached]
  | text t more ih => exact ih
  | comment t more ih => exact ih
  | single tag gap more ih =>
    refine List.forall_mem_append.mpr ⟨fun e he => ?_, ih⟩
    obtain ⟨name, -, rfl⟩ := List.mem_map.mp he
    rfl
  | paired tag children close more ihc ih =>
    refine List.forall_mem_append.mpr ⟨fun e he => ?_, List.forall_mem_append.mpr ⟨?_, ih⟩⟩
    · obtain ⟨name, -, rfl⟩ := List.mem_map.mp he
      rfl
    · split
      · exact ihc
      · simp

/-- Elements that say the same answer to the same ids. -/
theorem Element.SaysAs.answers {e e' : Element} (h : e.SaysAs e') (names : List String) (id : String) :
    e'.answers names id = e.answers names id := by
  unfold Element.answers
  rw [h.name, h.attrs]

theorem saysAs_trans {as bs cs : List Element} (h : List.Forall₂ Element.SaysAs as bs)
    (h' : List.Forall₂ Element.SaysAs bs cs) : List.Forall₂ Element.SaysAs as cs := by
  induction h generalizing cs with
  | nil =>
    cases h'
    exact .nil
  | cons hab _ ih =>
    cases h' with
    | cons hbc h' =>
      exact .cons ⟨hbc.name.trans hab.name, hbc.attrs.trans hab.attrs, hbc.selfClosing.trans hab.selfClosing,
        hbc.closed.trans hab.closed⟩ (ih h')

end Markup

namespace Edit

variable {names : List String} {id : String}

/-! ## The cuts -/

/-- The spans that the removal of some elements cuts out. -/
def cuttings (doc : List Char) (found : List Element) : List Span :=
  found.map fun e => (cutting doc e).span

/-- With its lines an element is longer by white space. -/
theorem grown_cutting {doc : List Char} {e : Element} {limit : Nat} (h : e.Stands doc limit) :
    Grown doc e.span (cutting doc e).span where
  nonempty := h.start_lt_stop
  start_le := (cutting_fits h.fits_span).2.1
  le_stop := (cutting_fits h.fits_span).2.2
  covers _ _ hc hblank := covers_cutting h.fits_span hc hblank

section

variable {f : Forest} {found : List Element}

/-- **Elements that a removal takes out of a tree**: a search by id has found them. -/
structure Chosen (f : Forest) (names : List String) (found : List Element) : Prop where
  settled : Settled f.chars names ⟨0, size f.chars⟩ found
  reached : ∀ e ∈ found, e ∈ f.reached (searchedNames names) 0

/-- Some of those that are found by an id. -/
theorem chosen_of_elementsById (hf : f.WellFormed) (hnames : ∀ name ∈ names, name ∈ nodeNames) {all : List Element}
    (hall : elementsById f.chars names id = .ok all) (hsub : found.Sublist all) : Chosen f names found where
  settled := (settled_of_elementsById hall).sublist hsub
  reached e he := by
    rw [elementsById_wellFormed (fun name hname => (lower_of_mem_searched hnames name hname).1) hf] at hall
    obtain rfl := Except.ok.inj hall
    exact List.mem_of_mem_filter (hsub.subset he)

/-- **The cuts cut through no other element.** -/
theorem fair_cuttings (h : Chosen f names found) : ∀ span ∈ cuttings f.chars found, f.Fair span 0 := by
  intro span hspan
  obtain ⟨d, hd, rfl⟩ := List.mem_map.mp hspan
  obtain ⟨limit, hstands⟩ := h.settled.stands d hd
  exact @Forest.Fair.grow _ _ _ (grown_cutting hstands) f [] [] (by simp) (fair_reached d (h.reached d hd))

/-- **An element is spared by the cuts just if it lies in none of the elements that are removed.** -/
theorem isLeft_cuttings (h : Chosen f names found) {searched : List String} {e : Element}
    (he : e ∈ f.reached searched 0) (hstart : At f.chars e.start '<') :
    e.isLeft (cuttings f.chars found) = e.spared found := by
  have hcovers : ∀ d ∈ found, (cutting f.chars d).span.covers e.start = decide (e.LiesIn d) := by
    intro d hd
    obtain ⟨limit, hstands⟩ := h.settled.stands d hd
    rw [(grown_cutting hstands).covers _ _ hstart rfl, Bool.eq_iff_iff, decide_eq_true_iff]
    have hlt := (span_of_reached e he).2.1
    exact ⟨takes_of_covers (fair_reached d (h.reached d hd)) e he,
      fun htakes => htakes.covers (Nat.le_refl _) hlt⟩
  unfold Element.isLeft Element.spared cuttings
  rw [List.any_map, List.not_any_eq_all_not, Bool.eq_iff_iff, List.all_eq_true, List.all_eq_true]
  refine forall₂_congr fun d hd => ?_
  rw [Function.comp_apply, hcovers d hd]

/-! ## The tree that remains -/

/-- **A tree without some elements that a search has found in it**, and without superfluous line breaks if there
are any of them. -/
def remaining (f : Forest) (found : List Element) : Forest :=
  if found = [] then f else (f.outside (cuttings f.chars found) 0).squeezed 0

theorem wellFormed_remaining (hf : f.WellFormed) : (remaining f found).WellFormed := by
  unfold remaining
  split
  · exact hf
  · exact wellFormed_squeezed (wellFormed_outside hf) 0

/-- **It is what the removal makes of the text.** -/
theorem chars_remaining (hf : f.WellFormed) (hcompact : f.AllTags WrittenTag.Compact) (h : Chosen f names found)
    (hunnested : Unnested found) :
    removeLines f.chars (removalPlan f.chars (.ok found)) = .ok ((remaining f found).chars, found.length) := by
  rw [removeLines_eq h.settled.fits_span (carryOut_of_unnested h.settled hunnested)]
  unfold remaining
  by_cases hnil : found = []
  · rw [if_pos hnil, if_pos hnil, hnil, List.map_nil, outside_nil]
  · rw [if_neg hnil, if_neg hnil, chars_squeezed (nested_outside hf.nested) (allTags_outside hcompact) 0,
      chars_outside (fair_cuttings h)]
    rfl

/-- **Its elements are those that the cuts spare.** -/
theorem reached_remaining (h : Chosen f names found) (searched : List String) :
    List.Forall₂ Element.SaysAs ((f.reached searched 0).filter (Element.isLeft (cuttings f.chars found)))
      ((remaining f found).reached searched 0) := by
  unfold remaining
  by_cases hnil : found = []
  · have hall : ∀ e ∈ f.reached searched 0, Element.isLeft (cuttings f.chars found) e = true := by
      rw [hnil]
      exact fun _ _ => rfl
    rw [if_pos hnil, List.filter_eq_self.mpr hall]
    exact List.forall₂_same.mpr fun _ _ => ⟨rfl, rfl, rfl, rfl⟩
  · rw [if_neg hnil]
    exact saysAs_trans (reached_outside (fair_cuttings h) 0) (reached_squeezed _ 0 0 0)

/-- Said with the elements that are removed alone. -/
theorem reached_spared (hf : f.WellFormed) (h : Chosen f names found) {searched : List String}
    (hsearched : ∀ name ∈ searched, Searchable name) :
    List.Forall₂ Element.SaysAs ((f.reached searched 0).filter (Element.spared found))
      ((remaining f found).reached searched 0) := by
  have hsettled := settled_of_walk (Span.fits_whole f.chars) (walk_wellFormed hsearched hf)
  have hspared : ∀ e ∈ f.reached searched 0, e.spared found = e.isLeft (cuttings f.chars found) := by
    intro e he
    obtain ⟨limit, hstands⟩ := hsettled.stands e he
    exact (isLeft_cuttings h he hstands.at_start).symm
  rw [List.filter_congr hspared]
  exact reached_remaining h searched

/-- **What is found by an id** is chosen alike of what is reached before and after. -/
theorem found_spared (hf : f.WellFormed) (h : Chosen f names found) {searched : List String}
    (hsearched : ∀ name ∈ searchedNames searched, Searchable name) (other : String) :
    ∃ before left, elementsById f.chars searched other = .ok before ∧
      elementsById (remaining f found).chars searched other = .ok left ∧
      List.Forall₂ Element.SaysAs (before.filter (Element.spared found)) left := by
  refine ⟨_, _, elementsById_wellFormed hsearched hf other,
    elementsById_wellFormed hsearched (wellFormed_remaining hf) other, ?_⟩
  rw [List.filter_comm]
  refine List.rel_filter ?_ (reached_spared hf h hsearched)
  exact fun e e' hspeaks => by simp only [hspeaks.answers]

end

/-! ## The removal of widgets -/

/-- Widgets lie apart. -/
theorem unnested_widgets {doc : List Char} {span : Span} {found : List Element}
    (h : Settled doc widgetNames span found) : Unnested found := by
  rintro a ha b - ⟨inner, hi, -⟩
  have hname := h.named a ha
  unfold Element.entered? at hi
  rw [if_neg (by simpa using not_container_of_mem_widgetNames a.name hname)] at hi
  exact absurd hi (by simp)

/-- All widgets of a well-formed document that a search finds are cut out. -/
theorem doomedWidgets_wellFormed {f : Forest} {found : List Element} (hf : f.WellFormed)
    (hfound : elementsById f.chars widgetNames id = .ok found) : doomedWidgets f.chars id = .ok found := by
  have hclosed : ∀ e ∈ found, e.closed = true := fun e he =>
    closed_of_reached e ((chosen_of_elementsById hf (by decide) hfound (.refl _)).reached e he)
  unfold doomedWidgets
  rw [hfound]
  exact congrArg Except.ok (List.filter_eq_self.mpr hclosed)

/-- **What the removal of all widgets with an id makes of a document**: `found` are the widgets that a search found,
`g` is the tree that remains. -/
structure WidgetsRemoved (f : Forest) (id : String) (found : List Element) (g : Forest) : Prop where
  removed : removeWidget f.chars id = .ok (g.chars, found.length)
  wellFormed : g.WellFormed
  /-- No widget with the id is found any more. -/
  gone : elementsById g.chars widgetNames id = .ok []
  /-- The widgets, groups and containers that do not lie in one of those that were removed are reached in their order,
  with the same attributes. -/
  order : ∀ names : List String, (∀ name ∈ names, name ∈ nodeNames) → ∃ before left,
    walk f.chars (searchedNames names) ⟨0, size f.chars⟩ = .ok before ∧
      walk g.chars (searchedNames names) ⟨0, size g.chars⟩ = .ok left ∧
      List.Forall₂ Element.SaysAs (before.filter (Element.spared found)) left
  /-- So they are found by their ids. -/
  kept : ∀ names : List String, (∀ name ∈ names, name ∈ nodeNames) → ∀ other, ∃ before left,
    elementsById f.chars names other = .ok before ∧ elementsById g.chars names other = .ok left ∧
      List.Forall₂ Element.SaysAs (before.filter (Element.spared found)) left
  /-- A second removal finds nothing to remove. -/
  again : removeWidget g.chars id = .ok (g.chars, 0)

/-- Without a widget to remove, a document stays as it is. -/
theorem removeWidget_of_nil {doc : List Char} (h : elementsById doc widgetNames id = .ok []) :
    removeWidget doc id = .ok (doc, 0) := by
  unfold removeWidget doomedWidgets
  rw [h]
  change removeLines doc (.ok []) = .ok (doc, 0)
  unfold removeLines
  rw [Splice.carryOut_nil]
  rfl

/-- **The removal of widgets is complete.** In a well-formed document without line breaks in the values of
attributes, it removes all widgets that a search for the id finds, and counts them; all other widgets and groups
outside them are found as before, in the same order and with the same attributes; and a second removal changes
nothing. -/
theorem removeWidget_complete {f : Forest} (hf : f.WellFormed) (hlines : f.AllTags WrittenTag.Unbroken)
    (id : String) :
    ∃ found g, elementsById f.chars widgetNames id = .ok found ∧ WidgetsRemoved f id found g := by
  have hsearchable : ∀ {names : List String}, (∀ name ∈ names, name ∈ nodeNames) →
      ∀ name ∈ searchedNames names, Searchable name :=
    fun hnames name hname => (lower_of_mem_searched hnames name hname).1
  have hwidgets : ∀ name ∈ widgetNames, name ∈ nodeNames := by decide
  have hfound := elementsById_wellFormed (hsearchable hwidgets) hf id
  generalize (f.reached (searchedNames widgetNames) 0).filter (·.answers widgetNames id) = found at hfound
  have hchosen := chosen_of_elementsById hf hwidgets hfound (.refl found)
  have hleft := @wellFormed_remaining f found hf
  have horder := fun names hnames => @reached_spared _ f found hf hchosen _ (@hsearchable names hnames)
  have hkept := fun names hnames => @found_spared _ f found hf hchosen _ (@hsearchable names hnames)
  have hgone : elementsById (remaining f found).chars widgetNames id = .ok [] := by
    obtain ⟨before, left, hbefore, hafter, hspeaks⟩ := hkept widgetNames hwidgets id
    obtain rfl := Except.ok.inj (hfound.symm.trans hbefore)
    rw [filter_spared_self, List.forall₂_nil_left_iff] at hspeaks
    rw [hafter, hspeaks]
  refine ⟨found, remaining f found, hfound, ?removed, hleft, hgone, fun names hnames => ?order, hkept,
    removeWidget_of_nil hgone⟩
  case removed =>
    unfold removeWidget
    rw [doomedWidgets_wellFormed hf hfound]
    exact chars_remaining hf (hlines.imp fun _ h => h.compact) hchosen (unnested_widgets hchosen.settled)
  case order =>
    exact ⟨_, _, walk_wellFormed (hsearchable hnames) hf, walk_wellFormed (hsearchable hnames) hleft,
      horder names hnames⟩

/-- Widgets with one id: on a line of its own, in a chart, and in a paragraph. -/
def widgetsApart : Forest :=
  .paired ⟨"dashboard".toList, [], []⟩
    (.text "\n  ".toList (.single spacedWidget [] (.text "\n\n\n\n".toList widgetsInside)))
    ⟨"dashboard".toList, []⟩ .nil

/-- The one in the chart is not found, and stays in it; so does the chart. -/
theorem removeWidget_complete_apart :
    widgetsApart.WellFormed ∧ widgetsApart.AllTags WrittenTag.Unbroken ∧
      ∃ found g, elementsById widgetsApart.chars widgetNames "k" = .ok found ∧ found.map Element.start = [14, 66] ∧
        WidgetsRemoved widgetsApart "k" found g := by
  have hwell : widgetsApart.WellFormed := by decide
  have hlines : widgetsApart.AllTags WrittenTag.Unbroken := by decide
  obtain ⟨found, g, hfound, hremoved⟩ := removeWidget_complete hwell hlines "k"
  refine ⟨hwell, hlines, found, g, hfound, ?_, hremoved⟩
  rw [elementsById_wellFormed (by decide) hwell] at hfound
  obtain rfl := Except.ok.inj hfound
  unfold widgetsApart widgetsInside
  simp only [Forest.reached, meant_spacedWidget]
  decide

end Edit

end DashboardMarkup
