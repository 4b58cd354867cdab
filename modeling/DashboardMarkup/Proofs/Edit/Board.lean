import DashboardMarkup.Edit.Insert
import DashboardMarkup.Proofs.Document.Whole
import DashboardMarkup.Proofs.Edit.NewBlock

/-!
# Boards with another root

The root of a board is its first dashboard. Where another dashboard is put in its place, the document is a
board with that root.

* `Context.First`: a place that no element of a name stands around or before.
* `exists_root_place`: the root element stands in such a place.
* `Forest.IsBoard.refill`: another root in its place.
* `Forest.IsBoard.exists_content`: so does what is in it.
* `admitted_containers`: a walk that looks for groups goes on everywhere.
* `mem_reached_content`: it reaches what stands in the root.
-/

namespace DashboardMarkup.Markup

open Text

/-- **A place that no element of a name stands around or before**, so that what a search finds there comes
first. -/
structure Context.First (c : Context) (name : String) : Prop where
  clear : c.Clear [name]
  left : c.left [name] = []

theorem Context.First.nodes_fill {c : Context} {name : String} (h : c.First name) (x : Forest) :
    (c.fill x).nodes [name] = x.nodes [name] ++ c.right [name] := by
  rw [Context.nodes_fill h.clear, h.left, List.nil_append]

/-- The root element is the first dashboard of the tree. -/
theorem rootElement_forest {f : Forest} (hf : f.WellFormed) :
    Edit.rootElement f.chars = .ok (f.outermost ["dashboard"] 0).head? := by
  have hfind := find_forest (show ∀ name ∈ ["dashboard"], Searchable name by decide) hf [] []
  simp only [List.nil_append, List.append_nil, size_nil, Nat.zero_add] at hfind
  unfold Edit.rootElement findFirst
  rw [hfind]
  rfl

/-- **The root element stands in the first place of a dashboard.** -/
theorem exists_root_place {f : Forest} (hf : f.WellFormed) {e : Element}
    (h : Edit.rootElement f.chars = .ok (some e)) :
    ∃ (c : Context) (x : Forest), f = c.fill x ∧ x.Spells ["dashboard"] (size c.before) e ∧
      c.First "dashboard" := by
  rw [rootElement_forest hf] at h
  have hhead : (f.outermost ["dashboard"] 0).head? = some e := Except.ok.inj h
  obtain ⟨rest, hrest⟩ := List.head?_eq_some_iff.mp hhead
  obtain ⟨c, x, hfill, hspells, hclear, hleft⟩ :=
    @exists_context_of_outermost ["dashboard"] f 0 [] rest e hrest
  rw [Nat.zero_add] at hspells
  exact ⟨c, x, hfill, hspells, hclear, List.length_eq_zero_iff.mp hleft⟩

/-- The content of a root that is not empty stands in the first place of a dashboard, between two tags. -/
theorem Forest.IsBoard.exists_content {f : Forest} {root : Node} (h : f.IsBoard root)
    (hne : root.content ≠ .nil) : ∃ (c : Context) (tag : WrittenTag) (close : WrittenClose),
      f = c.fill (.paired tag root.content close .nil) ∧ c.First "dashboard" ∧
        tag.nameIn? ["dashboard"] = some root.name ∧ tag.meant = root.attrs := by
  have hlength := length_nodes ["dashboard"] f 0
  have hone := h.first
  cases hout : f.outermost ["dashboard"] 0 with
  | nil =>
    rw [hout] at hlength
    rw [List.length_eq_zero_iff.mp hlength] at hone
    exact absurd hone (by simp)
  | cons e es =>
    have hroot : Edit.rootElement f.chars = .ok (some e) := by
      rw [rootElement_forest h.wellFormed, hout]
      rfl
    obtain ⟨c, x, rfl, hspells, hfirst⟩ := exists_root_place h.wellFormed hroot
    rw [hfirst.nodes_fill] at hone
    cases hspells with
    | @single tag gap name hin =>
      obtain rfl : (⟨name, tag.meant, .nil⟩ : Node) = root := by simpa [Forest.nodes, hin] using hone
      exact absurd rfl hne
    | @paired tag children close name hin =>
      obtain rfl : (⟨name, tag.meant, children⟩ : Node) = root := by simpa [Forest.nodes, hin] using hone
      exact ⟨c, tag, close, rfl, hfirst, hin, rfl⟩

/-- **Another root in the place of the first one.** -/
theorem Forest.IsBoard.refill {c : Context} (hc : c.First "dashboard") {x y : Forest} {root root' : Node}
    (h : (c.fill x).IsBoard root) (hx : ∃ s, x.chars = '<' :: s) (hy : ∃ t, y.chars = '<' :: t)
    (hroot : (y.nodes ["dashboard"]).head? = some root') (hattrs : root'.attrs = root.attrs)
    (hwell : y.WellFormed) (huntagged : Template.Untagged (c.fill y).chars) : (c.fill y).IsBoard root' := by
  obtain ⟨s, hs⟩ := hx
  obtain ⟨t, ht⟩ := hy
  refine ⟨(Context.wellFormed_fill h.wellFormed).2 y hwell, huntagged, ?_, ?_, ?_⟩
  · have hmarkup := h.markup
    rw [Context.chars_fill, hs] at hmarkup
    rw [Context.chars_fill, ht]
    exact Edit.isMarkup_congr hmarkup
  · rw [hc.nodes_fill, List.head?_append, hroot]
    rfl
  · unfold Node.IsGrid
    rw [hattrs]
    exact h.grid

/-- A root with the same attributes and style blocks has the same theme. -/
theorem dress_congr {root root' : Node} (hattrs : root'.attrs = root.attrs)
    (hobjects : root'.canvasObjects = root.canvasObjects) : root'.dress = root.dress := by
  funext w
  unfold Node.dress Node.theme?
  rw [hattrs, hobjects]

/-- The walk reaches what is in one tree before what is in the tree behind it. -/
theorem reached_append (names : List String) (f g : Forest) (offset : Nat) :
    (f.append g).reached names offset =
      f.reached names offset ++ g.reached names (offset + size f.chars) := by
  have hlt : size "<!--".toList = 4 := rfl
  have hgt : size "-->".toList = 3 := rfl
  have hslash : ('/').utf8Size = 1 := rfl
  have hend : ('>').utf8Size = 1 := rfl
  induction f generalizing offset with
  | nil => rfl
  | text t rest ih =>
    rw [Forest.append, Forest.reached, Forest.reached, ih]
    congr 2
    simp only [Forest.chars, size_append]
    omega
  | comment t rest ih =>
    rw [Forest.append, Forest.reached, Forest.reached, ih]
    congr 2
    simp only [Forest.chars, size_append, hlt, hgt]
    omega
  | single tag gap rest ih =>
    rw [Forest.append, Forest.reached, Forest.reached, ih, List.append_assoc]
    congr 3
    simp only [Forest.chars, size_append, size_cons, hslash, hend]
    omega
  | paired tag children close rest _ ih =>
    rw [Forest.append, Forest.reached, Forest.reached, ih, List.append_assoc, List.append_assoc]
    congr 4
    simp only [Forest.chars, size_append, size_cons, hend]
    omega

theorem searchable_of_mem_searchedGroup : ∀ name ∈ searchedNames ["group"], Searchable name := by
  decide

/-- A walk that looks for groups goes on into all elements. -/
theorem admitted_containers (c : Context) : c.Admitted (searchedNames ["group"]) := by
  induction c with
  | here rest => trivial
  | text t c ih => exact ih
  | comment t c ih => exact ih
  | single tag gap c ih => exact ih
  | beside tag children close c ih => exact ih
  | inside tag c close rest ih =>
    refine ⟨?_, ih⟩
    cases hin : tag.nameIn? (searchedNames ["group"]) with
    | none => exact admits_of_none hin
    | some name =>
      rw [admits_of_some hin]
      exact List.contains_iff_mem.mpr (List.mem_of_find?_eq_some hin)

/-! ## What the walk reaches there -/

/-- The walk reaches what stands in a place if it goes on into all elements around it. -/
theorem mem_reached_fill {names : List String} {c : Context} (hc : c.Admitted names) {x : Forest} {e : Element}
    {offset : Nat} (h : e ∈ x.reached names (offset + size c.before)) : e ∈ (c.fill x).reached names offset := by
  induction c generalizing offset with
  | here rest =>
    rw [Context.fill, reached_append]
    exact List.mem_append_left _ h
  | text t c ih =>
    rw [Context.size_before_text] at h
    exact ih hc h
  | comment t c ih =>
    rw [Context.size_before_comment] at h
    exact ih hc h
  | single tag gap c ih =>
    rw [Context.size_before_single] at h
    exact List.mem_append_right _ (ih hc h)
  | beside tag children close c ih =>
    rw [Context.size_before_beside] at h
    exact List.mem_append_right _ (List.mem_append_right _ (ih hc h))
  | inside tag c close rest ih =>
    rw [Context.size_before_inside] at h
    refine List.mem_append_right _ (List.mem_append_left _ ?_)
    rw [if_pos hc.1]
    exact ih hc.2 h

/-- **A walk for groups reaches each part of the content of an element.** -/
theorem mem_reached_content {c : Context} {tag : WrittenTag} {close : WrittenClose} {front x back : Forest}
    {e : Element} (h : e ∈ x.reached (searchedNames ["group"])
      (size (c.before ++ (tag.text ++ '>' :: front.chars)))) :
    e ∈ (c.fill (.paired tag (front.append (x.append back)) close .nil)).reached (searchedNames ["group"]) 0 := by
  have hgt : ('>').utf8Size = 1 := rfl
  have hinside := admitted_containers (.inside tag (.here .nil) close .nil)
  refine mem_reached_fill (admitted_containers c) (List.mem_append_right _ (List.mem_append_left _ ?_))
  rw [if_pos hinside.1, reached_append, reached_append]
  refine List.mem_append_right _ (List.mem_append_left _ ?_)
  have hsize : size (c.before ++ (tag.text ++ '>' :: front.chars)) =
      0 + size c.before + size tag.text + 1 + size front.chars := by
    simp only [size_append, size_cons, hgt]
    omega
  rw [hsize] at h
  exact h

end DashboardMarkup.Markup
