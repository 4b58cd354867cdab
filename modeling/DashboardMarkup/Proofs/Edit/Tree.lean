import DashboardMarkup.Proofs.Edit.Walk
import DashboardMarkup.Proofs.Markup.Forest

/-!
# The walk through a tree

* `walk_forest`: in a document that is written as a tree, the walk through the containers reaches the
  elements that the tree has outside of others which are no containers, if it finds every close tag.
* `walk_wellFormed`: so it does in every well-formed document.
-/

namespace DashboardMarkup.Markup

open Text

/-- Whether the walk goes on behind an open tag: into containers, and through elements that it does not look
for. -/
def WrittenTag.admits (names : List String) (t : WrittenTag) : Bool :=
  match t.nameIn? names with
  | some name => containerNames.contains name
  | none => true

/-- The elements of some names that can be reached by going into containers, in a document that begins at
an offset. -/
def Forest.reached (names : List String) : Nat → Forest → List Element
  | _, nil => []
  | offset, text t rest => rest.reached names (offset + size t)
  | offset, comment t rest => rest.reached names (offset + 4 + size t + 3)
  | offset, single tag gap rest =>
    let stop := offset + size tag.text + 1 + size gap + 1
    ((tag.nameIn? names).toList.map fun name => ⟨name, offset, stop, tag.meant, .selfClosing⟩) ++
      rest.reached names stop
  | offset, paired tag children close rest =>
    let openEnd := offset + size tag.text + 1
    let closeStart := openEnd + size children.chars
    let stop := closeStart + size close.text
    ((tag.nameIn? names).toList.map fun name =>
        ⟨name, offset, openEnd, tag.meant, .paired ⟨openEnd, closeStart⟩ stop⟩) ++
      ((if tag.admits names then children.reached names openEnd else []) ++ rest.reached names stop)

theorem admits_of_none {names : List String} {t : WrittenTag} (h : t.nameIn? names = none) :
    t.admits names = true := by
  unfold WrittenTag.admits
  rw [h]

theorem admits_of_some {names : List String} {t : WrittenTag} {name : String}
    (h : t.nameIn? names = some name) : t.admits names = containerNames.contains name := by
  unfold WrittenTag.admits
  rw [h]

/-- From the outermost elements of a tree, and others behind it, the walk goes on through the tree. -/
theorem reached_forest {doc : List Char} {names : List String}
    (hnames : ∀ name ∈ names, Searchable name) {f : Forest} (hf : f.Nested)
    (htags : f.AllTags fun t => t.nameIn? names = none → t.Plain) {after : List Char}
    (hcloses : f.Closes names after) {before behind : List Char}
    (hdoc : doc = before ++ (f.chars ++ behind)) {roots all : List Element}
    (h : Reached doc names roots all) :
    Reached doc names (f.outermost names (size before) ++ roots)
      (f.reached names (size before) ++ all) := by
  -- the induction is on the tree; what stands before and behind a part of it varies
  induction f generalizing after before behind roots all with
  | nil => exact h
  | text t more ih =>
    rw [Forest.outermost, Forest.reached, ← size_append]
    exact @ih hf.2 htags after hcloses (before ++ t) behind
      (by rw [hdoc]; simp [Forest.chars]) roots all h
  | comment t more ih =>
    rw [Forest.outermost, Forest.reached, size_comment]
    exact @ih hf.2 htags after hcloses (before ++ ("<!--".toList ++ (t ++ "-->".toList))) behind
      (by rw [hdoc]; simp [Forest.chars]) roots all h
  | single tag gap more ih =>
    have hrest := @ih hf.2.2 htags.2 after hcloses (before ++ (tag.text ++ ('/' :: gap ++ ['>']))) behind
      (by rw [hdoc]; simp [Forest.chars]) roots all h
    rw [Forest.outermost, Forest.reached, size_single]
    cases tag.nameIn? names with
    | none => exact hrest
    | some name =>
      refine Reached.leaf ?_ hrest
      unfold Element.entered? Element.inner?
      split <;> rfl
  | paired tag children close more ihc ih =>
    obtain ⟨htag, hclose, hsame, hchildren, hmore⟩ := hf
    obtain ⟨hone, hinside, htags⟩ := htags
    obtain ⟨hfound, hcloses⟩ := hcloses
    have hrest := @ih hmore htags after hcloses
      (before ++ (tag.text ++ ['>'] ++ (children.chars ++ close.text))) behind
      (by rw [hdoc]; simp [Forest.chars]) roots all h
    have hdoc' : doc = (before ++ (tag.text ++ ['>'])) ++
        (children.chars ++ (close.text ++ (more.chars ++ behind))) := by
      rw [hdoc]
      simp [Forest.chars]
    rw [Forest.outermost, Forest.reached, size_paired, size_open]
    cases hin : tag.nameIn? names with
    | none =>
      rw [hin] at hfound
      have hcontent := @ihc hchildren hinside (close.text ++ (more.chars ++ after)) hfound _ _ hdoc'
        _ _ hrest
      rw [if_pos (admits_of_none hin)]
      simp only [Option.toList_none, List.map_nil, List.nil_append]
      rw [List.append_assoc _ _ roots, List.append_assoc _ _ all]
      exact hcontent
    | some name =>
      rw [hin] at hfound
      obtain ⟨-, hfound⟩ := hfound
      rw [admits_of_some hin]
      simp only [Option.toList_some, List.map_cons, List.map_nil, List.cons_append, List.nil_append]
      by_cases hname : containerNames.contains name = true
      · have hcontent := @ihc hchildren hinside [] hfound _ _ hdoc' [] [] Reached.nil
        have hfind := find_of_closes hnames hchildren hinside hfound (before ++ (tag.text ++ ['>']))
          (close.text ++ (more.chars ++ behind))
        rw [← hdoc'] at hfind
        rw [List.append_nil, List.append_nil] at hcontent
        rw [if_pos hname, List.append_assoc _ _ all]
        refine Reached.enter ?_ hfind hcontent hrest
        unfold Element.entered? Element.inner?
        rw [if_pos hname]
      · rw [if_neg hname, List.nil_append]
        refine Reached.leaf ?_ hrest
        unfold Element.entered?
        rw [if_neg hname]

/-- **The walk through a tree reaches what the tree has**, as long as every close tag is found. -/
theorem walk_forest {names : List String} (hnames : ∀ name ∈ names, Searchable name) {f : Forest}
    (hf : f.Nested) (htags : f.AllTags fun t => t.nameIn? names = none → t.Plain)
    (hcloses : f.Closes names []) :
    walk f.chars names ⟨0, size f.chars⟩ = .ok (f.reached names 0) := by
  have hfind := find_of_closes hnames hf htags hcloses [] []
  have hreached := @reached_forest f.chars names hnames f hf htags [] hcloses [] [] (by simp) [] []
    Reached.nil
  rw [List.append_nil, List.append_nil] at hreached
  rw [List.nil_append, List.append_nil, size_nil, Nat.zero_add] at hfind
  exact walk_eq_ok.mpr ⟨_, hfind, hreached⟩

/-- **In a well-formed document the walk reaches what its tree has.** -/
theorem walk_wellFormed {names : List String} (hnames : ∀ name ∈ names, Searchable name) {f : Forest}
    (hf : f.WellFormed) : walk f.chars names ⟨0, size f.chars⟩ = .ok (f.reached names 0) := by
  exact walk_forest hnames hf.nested (hf.plain.others names) (closes_of_plain hnames hf.nested hf.plain [])

theorem elementsById_wellFormed {names : List String} (hnames : ∀ name ∈ searchedNames names, Searchable name)
    {f : Forest} (hf : f.WellFormed) (id : String) :
    elementsById f.chars names id =
      .ok ((f.reached (searchedNames names) 0).filter (·.answers names id)) :=
  elementsById_eq_ok.mpr ⟨_, walk_wellFormed hnames hf, rfl⟩

end DashboardMarkup.Markup
