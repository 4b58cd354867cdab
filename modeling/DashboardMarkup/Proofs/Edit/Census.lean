import DashboardMarkup.Edit.Change
import DashboardMarkup.Proofs.Edit.Tree

/-!
# What the search by id finds

A search by id goes into containers at any depth, passes through elements of other names, and stops at the widgets
that it looks for. What it should find can be said without it: `Forest.census` counts all elements of a tree, each
with the names of the elements around it, and `Entry.Sought` says of each whether it is one of those.

* `nameIn?_of_lower`: of names in small letters, a tag has the one that it has in small letters.
* `pairwise_census`: the census counts each element once, in the order of the text.
* `reached_eq_census`: the walk reaches the elements of its names with none around them that it does not go into.
* `elementsById_census`: so the search finds exactly the elements that it should.
-/

namespace DashboardMarkup.Markup

open Text

/-! ## All elements of a tree -/

/-- The name of a tag in small letters. -/
def WrittenTag.lowerName (t : WrittenTag) : String :=
  String.ofList (lower t.name)

/-- An element of a tree, and the names of the elements around it, in small letters. -/
structure Entry where
  element : Element
  around : List String
  deriving DecidableEq

/-- **All elements of a tree** that begins at an offset, inside others of some names. -/
def Forest.census (around : List String) : Nat → Forest → List Entry
  | _, nil => []
  | offset, text t rest => rest.census around (offset + size t)
  | offset, comment t rest => rest.census around (offset + 4 + size t + 3)
  | offset, single tag gap rest =>
    let stop := offset + size tag.text + 1 + size gap + 1
    ⟨⟨tag.lowerName, offset, stop, tag.meant, .selfClosing⟩, around⟩ :: rest.census around stop
  | offset, paired tag children close rest =>
    let openEnd := offset + size tag.text + 1
    let closeStart := openEnd + size children.chars
    let stop := closeStart + size close.text
    ⟨⟨tag.lowerName, offset, openEnd, tag.meant, .paired ⟨openEnd, closeStart⟩ stop⟩, around⟩ ::
      (children.census (tag.lowerName :: around) openEnd ++ rest.census around stop)

namespace Entry

/-- Of the elements around an element, those of some names are containers. -/
def Exposed (names : List String) (x : Entry) : Prop :=
  ∀ name ∈ x.around, name ∈ names → name ∈ containerNames

/-- What a walk for some names reaches: the elements of these names that are exposed to it. -/
structure Reached (names : List String) (x : Entry) : Prop where
  name : x.element.name ∈ names
  exposed : x.Exposed names

/-- **What a search by id looks for**: an element of one of its names with the id, inside no element of these names
but containers. -/
structure Sought (names : List String) (id : String) (x : Entry) : Prop where
  name : x.element.name ∈ names
  id : (x.element.attrs.get? "id").map trimmed = some id
  exposed : x.Exposed (containerNames ++ names)

instance (names : List String) : DecidablePred (Exposed names) := fun x =>
  inferInstanceAs (Decidable (∀ name ∈ x.around, _))

instance (names : List String) : DecidablePred (Reached names) := fun x =>
  decidable_of_iff (x.element.name ∈ names ∧ x.Exposed names) ⟨fun h => ⟨h.1, h.2⟩, fun h => ⟨h.1, h.2⟩⟩

instance (names : List String) (id : String) : DecidablePred (Sought names id) := fun x =>
  decidable_of_iff (x.element.name ∈ names ∧ (x.element.attrs.get? "id").map trimmed = some id ∧
      x.Exposed (containerNames ++ names))
    ⟨fun ⟨h1, h2, h3⟩ => ⟨h1, h2, h3⟩, fun h => ⟨h.1, h.2, h.3⟩⟩

end Entry

variable {names around : List String}

/-! ## The order of the census -/

theorem start_of_mem_census {f : Forest} {offset : Nat} :
    ∀ x ∈ f.census around offset, offset ≤ x.element.start ∧ x.element.start < offset + size f.chars := by
  have hgt : ('>').utf8Size = 1 := rfl
  have hslash : ('/').utf8Size = 1 := rfl
  induction f generalizing around offset with
  | nil => simp [Forest.census]
  | text t more ih =>
    intro x hx
    have := ih x hx
    simp only [Forest.chars, size_append]
    omega
  | comment t more ih =>
    intro x hx
    have := ih x hx
    have hopen : size "<!--".toList = 4 := rfl
    have hclose : size "-->".toList = 3 := rfl
    simp only [Forest.chars, size_append, hopen, hclose]
    omega
  | single tag gap more ih =>
    simp only [chars_single, size_append, size_cons, size_nil, hslash, hgt]
    refine List.forall_mem_cons.mpr ⟨by simp only; omega, fun x hx => ?_⟩
    have := ih x hx
    omega
  | paired tag children close more ihc ih =>
    simp only [chars_paired, size_append, size_cons, size_nil, hgt]
    refine List.forall_mem_cons.mpr ⟨by simp only; omega, fun x hx => ?_⟩
    rcases List.mem_append.mp hx with hx | hx
    · have := ihc x hx
      omega
    · have := ih x hx
      omega

/-- **The census goes through the text from left to right**, and counts no element twice. -/
theorem pairwise_census (around : List String) (offset : Nat) (f : Forest) :
    (f.census around offset).Pairwise fun x y => x.element.start < y.element.start := by
  induction f generalizing around offset with
  | nil => exact .nil
  | text t more ih => exact ih around _
  | comment t more ih => exact ih around _
  | single tag gap more ih =>
    refine .cons (fun x hx => ?_) (ih around _)
    have := (start_of_mem_census x hx).1
    simp only
    omega
  | paired tag children close more ihc ih =>
    refine .cons (fun x hx => ?_) (List.pairwise_append.mpr ⟨ihc _ _, ih around _, fun x hx y hy => ?_⟩)
    · rcases List.mem_append.mp hx with hx | hx
      · have := (start_of_mem_census x hx).1
        simp only
        omega
      · have := (start_of_mem_census x hx).1
        simp only
        omega
    · have hbefore := (start_of_mem_census x hx).2
      have hbehind := (start_of_mem_census y hy).1
      omega

/-- The elements around a tree are around all its elements. -/
theorem around_subset_of_mem_census {f : Forest} {offset : Nat} :
    ∀ x ∈ f.census around offset, around ⊆ x.around := by
  induction f generalizing around offset with
  | nil => simp [Forest.census]
  | text t more ih => exact ih
  | comment t more ih => exact ih
  | single tag gap more ih => exact List.forall_mem_cons.mpr ⟨List.Subset.refl around, ih⟩
  | paired tag children close more ihc ih =>
    refine List.forall_mem_cons.mpr ⟨List.Subset.refl around, fun x hx => ?_⟩
    rcases List.mem_append.mp hx with hx | hx
    · exact fun name hname => ihc x hx (List.mem_cons_of_mem _ hname)
    · exact ih x hx

/-! ## Names in small letters -/

/-- Of names in small letters, a tag has the one that it has in small letters, if any. -/
theorem nameIn?_of_lower (hlower : ∀ name ∈ names, lower name.toList = name.toList) (t : WrittenTag) :
    t.nameIn? names = if t.lowerName ∈ names then some t.lowerName else none := by
  cases hin : t.nameIn? names with
  | none =>
    refine (if_neg fun hmem => ?_).symm
    have hne := List.find?_eq_none.mp hin _ hmem
    refine hne (beq_iff_eq.mpr ?_)
    rw [hlower _ hmem]
    exact String.toList_ofList.symm
  | some name =>
    have hmem : name ∈ names := List.mem_of_find?_eq_some hin
    have hsame := @List.find?_some _ (fun name : String => lower t.name == lower name.toList) _ _ hin
    have hname : t.lowerName = name := by
      unfold WrittenTag.lowerName
      rw [beq_iff_eq.mp hsame, hlower name hmem, String.ofList_toList]
    rw [hname, if_pos hmem]

theorem admits_of_lower (hlower : ∀ name ∈ names, lower name.toList = name.toList) (t : WrittenTag) :
    t.admits names = true ↔ (t.lowerName ∈ names → t.lowerName ∈ containerNames) := by
  unfold WrittenTag.admits
  rw [nameIn?_of_lower hlower]
  by_cases hmem : t.lowerName ∈ names
  · simp [hmem]
  · simp [hmem]

/-! ## The walk and the census -/

/-- Inside an element that it does not go into the walk reaches nothing. -/
theorem filter_census_of_closed {f : Forest} {offset : Nat} {name : String} (hmem : name ∈ around)
    (hin : name ∈ names) (hclosed : name ∉ containerNames) :
    (f.census around offset).filter (Entry.Reached names ·) = [] := by
  refine List.filter_eq_nil_iff.mpr fun x hx hreached => ?_
  exact hclosed ((of_decide_eq_true hreached).exposed name (around_subset_of_mem_census x hx hmem) hin)

/-- What the walk makes of an element with a tag. -/
theorem filter_entry (hlower : ∀ name ∈ names, lower name.toList = name.toList)
    (haround : ∀ name ∈ around, name ∈ names → name ∈ containerNames) (tag : WrittenTag)
    (element : String → Element)
    (hname : (element tag.lowerName).name = tag.lowerName) :
    (([⟨element tag.lowerName, around⟩] : List Entry).filter (Entry.Reached names ·)).map Entry.element =
      (tag.nameIn? names).toList.map element := by
  rw [nameIn?_of_lower hlower]
  by_cases hmem : tag.lowerName ∈ names
  · have hreached : Entry.Reached names ⟨element tag.lowerName, around⟩ := ⟨by rw [hname]; exact hmem, haround⟩
    simp [hmem, hreached]
  · have hreached : ¬Entry.Reached names ⟨element tag.lowerName, around⟩ := fun h => hmem (hname ▸ h.name)
    simp [hmem, hreached]

/-- **What the walk reaches**, of all elements of a tree. -/
theorem reached_eq_census (hlower : ∀ name ∈ names, lower name.toList = name.toList)
    (haround : ∀ name ∈ around, name ∈ names → name ∈ containerNames) (f : Forest) (offset : Nat) :
    f.reached names offset = ((f.census around offset).filter (Entry.Reached names ·)).map Entry.element := by
  -- the induction is on the tree, with all that may be around it
  induction f generalizing around offset with
  | nil => rfl
  | text t more ih => exact ih haround _
  | comment t more ih => exact ih haround _
  | single tag gap more ih =>
    have hrest := ih haround (offset + size tag.text + 1 + size gap + 1)
    rw [Forest.reached, Forest.census, ← List.singleton_append, List.filter_append, List.map_append, ← hrest]
    rw [filter_entry hlower haround tag
      (fun name => ⟨name, offset, offset + size tag.text + 1 + size gap + 1, tag.meant, .selfClosing⟩) rfl]
  | paired tag children close more ihc ih =>
    have hrest := ih haround (offset + size tag.text + 1 + size children.chars + size close.text)
    rw [Forest.reached, Forest.census, ← List.singleton_append, List.filter_append, List.filter_append,
      List.map_append, List.map_append, ← hrest]
    rw [filter_entry hlower haround tag (fun name => ⟨name, offset, offset + size tag.text + 1, tag.meant,
      .paired ⟨offset + size tag.text + 1, offset + size tag.text + 1 + size children.chars⟩
        (offset + size tag.text + 1 + size children.chars + size close.text)⟩) rfl]
    by_cases hadmits : tag.admits names = true
    · have hinside := ihc (List.forall_mem_cons.mpr ⟨(admits_of_lower hlower tag).mp hadmits, haround⟩)
        (offset + size tag.text + 1)
      rw [if_pos hadmits, hinside]
    · obtain ⟨hmem, hclosed⟩ := Classical.not_imp.mp (mt (admits_of_lower hlower tag).mpr hadmits)
      rw [if_neg hadmits, filter_census_of_closed List.mem_cons_self hmem hclosed, List.map_nil]

theorem mem_searchedNames {name : String} :
    name ∈ searchedNames names ↔ name ∈ containerNames ++ names := by
  unfold searchedNames
  simp only [List.mem_append, List.mem_filter, Bool.not_eq_true', List.contains_eq_mem, decide_eq_false_iff_not]
  by_cases hcontainer : name ∈ containerNames
  · simp [hcontainer]
  · simp [hcontainer]

/-- Of what the walk reaches, the search gives what it looks for. -/
theorem sought_iff {id : String} {x : Entry} :
    x.Sought names id ↔ x.Reached (searchedNames names) ∧ x.element.answers names id = true := by
  have hexposed : x.Exposed (searchedNames names) ↔ x.Exposed (containerNames ++ names) :=
    forall_congr' fun name => forall_congr' fun _ => by rw [mem_searchedNames]
  have hanswers : x.element.answers names id = true ↔
      x.element.name ∈ names ∧ (x.element.attrs.get? "id").map trimmed = some id := by
    unfold Element.answers
    rw [Bool.and_eq_true, List.contains_iff_mem, beq_iff_eq]
  rw [hanswers]
  constructor
  · intro h
    exact ⟨⟨mem_searchedNames.mpr (List.mem_append_right _ h.name), hexposed.mpr h.exposed⟩, h.name, h.id⟩
  · rintro ⟨hreached, hname, hid⟩
    exact ⟨hname, hid, hexposed.mp hreached.exposed⟩

/-- The names of widgets and groups are written in small letters, and so are those of containers. -/
theorem lower_of_mem_searched (hnames : ∀ name ∈ names, name ∈ Edit.nodeNames) :
    ∀ name ∈ searchedNames names, Searchable name ∧ lower name.toList = name.toList := by
  have hall : ∀ name ∈ containerNames ++ Edit.nodeNames, Searchable name ∧ lower name.toList = name.toList := by
    decide
  intro name hname
  refine hall name ?_
  rcases List.mem_append.mp (mem_searchedNames.mp hname) with hname | hname
  · exact List.mem_append_left _ hname
  · exact List.mem_append_right _ (hnames name hname)

/-- **A search by id finds exactly the elements that it looks for**, each once and in the order of the text. -/
theorem elementsById_census {f : Forest} (hf : f.WellFormed) (hnames : ∀ name ∈ names, name ∈ Edit.nodeNames)
    (id : String) :
    elementsById f.chars names id =
        .ok (((f.census [] 0).filter (Entry.Sought names id ·)).map Entry.element) ∧
      (f.census [] 0).Pairwise fun x y => x.element.start < y.element.start := by
  refine ⟨?_, pairwise_census [] 0 f⟩
  have hsearched := lower_of_mem_searched hnames
  have hlower : ∀ name ∈ searchedNames names, lower name.toList = name.toList :=
    fun name hname => (hsearched name hname).2
  rw [elementsById_wellFormed (fun name hname => (hsearched name hname).1) hf,
    @reached_eq_census _ [] hlower (by simp) f 0, List.filter_map, List.filter_filter]
  congr 2
  refine List.filter_congr fun x _ => ?_
  rw [Bool.eq_iff_iff, Bool.and_eq_true, decide_eq_true_iff, decide_eq_true_iff, sought_iff, and_comm,
    Function.comp_apply]

/-! ## A widget in another one -/

/-- The tag of a widget, in capital letters and with blanks around its id. -/
def spacedWidget : WrittenTag :=
  ⟨"KPI".toList, [⟨[' '], "id".toList, [], [], " k ".toList⟩], []⟩

theorem meant_spacedWidget : spacedWidget.meant = [⟨"id", " k "⟩] := by
  have hvalue : Entity.decode " k ".toList = " k ".toList := by
    simp [Entity.decode_cons, Entity.decode_nil, Entity.read?, Entity.names, stripPrefix?]
  simp only [spacedWidget, WrittenTag.meant, List.map_cons, List.map_nil, WrittenAttribute.meant, hvalue]
  decide

/-- A widget in a chart, and one in a paragraph. -/
def widgetsInside : Forest :=
  .paired ⟨"chart".toList, [], []⟩ (.single spacedWidget [] .nil) ⟨"chart".toList, []⟩
    (.paired ⟨"P".toList, [], []⟩ (.single spacedWidget [] .nil) ⟨"p".toList, []⟩ .nil)

theorem census_widgetsInside :
    widgetsInside.census [] 0 =
      [⟨⟨"chart", 0, 7, [], .paired ⟨7, 22⟩ 30⟩, []⟩,
        ⟨⟨"kpi", 7, 22, [⟨"id", " k "⟩], .selfClosing⟩, ["chart"]⟩,
        ⟨⟨"p", 30, 33, [], .paired ⟨33, 48⟩ 52⟩, []⟩,
        ⟨⟨"kpi", 33, 48, [⟨"id", " k "⟩], .selfClosing⟩, ["p"]⟩] := by
  unfold widgetsInside
  simp only [Forest.census, meant_spacedWidget]
  decide

/-- A search for charts and numbers does not go into the chart. -/
theorem elementsById_census_inside :
    widgetsInside.WellFormed ∧ (∀ name ∈ ["kpi", "chart"], name ∈ Edit.nodeNames) ∧
      elementsById "<chart><KPI id=\" k \"/></chart><P><KPI id=\" k \"/></p>".toList ["kpi", "chart"] "k" =
        .ok [⟨"kpi", 33, 48, [⟨"id", " k "⟩], .selfClosing⟩] := by
  have hwell : widgetsInside.WellFormed := by decide
  have hnames : ∀ name ∈ ["kpi", "chart"], name ∈ Edit.nodeNames := by decide
  have hfound := (elementsById_census hwell hnames "k").1
  rw [census_widgetsInside] at hfound
  exact ⟨hwell, hnames, hfound⟩

end DashboardMarkup.Markup
