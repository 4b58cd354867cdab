import DashboardMarkup.Proofs.Edit.Tree
import DashboardMarkup.Proofs.Markup.Node

/-!
# A place in a tree

An edit that writes one part of a document anew changes the tree in one place. A `Context` is a tree with a
place left open, and `fill` puts a tree there.

* `chars_fill`: the text of the whole is that of the part, with the same text before and behind it.
* `exists_context_of_reached`, `exists_context_of_outermost`: an element that a walk or a search finds is
  such a part.
* `nodes_fill`: what a search finds in the place, it finds between the same nodes.
* `rel_reachedNodes_fill`: of what the walk reaches, the elements around the place keep their tags and all
  other elements stay the same.
-/

namespace DashboardMarkup.Markup

open Text

/-! ## One tree behind another -/

namespace Forest

/-- Two trees, one behind the other. -/
@[grind =]
def append : Forest → Forest → Forest
  | nil, g => g
  | text t rest, g => text t (rest.append g)
  | comment t rest, g => comment t (rest.append g)
  | single tag gap rest, g => single tag gap (rest.append g)
  | paired tag children close rest, g => paired tag children close (rest.append g)

/-- The elements that the walk reaches without their places. -/
@[grind =]
def reachedNodes (names : List String) : Forest → List Node
  | nil => []
  | text _ rest => rest.reachedNodes names
  | comment _ rest => rest.reachedNodes names
  | single tag _ rest =>
    ((tag.nameIn? names).toList.map fun name => ⟨name, tag.meant, .nil⟩) ++ rest.reachedNodes names
  | paired tag children _ rest =>
    ((tag.nameIn? names).toList.map fun name => ⟨name, tag.meant, children⟩) ++
      ((if tag.admits names then children.reachedNodes names else []) ++ rest.reachedNodes names)

theorem chars_append (f g : Forest) : (f.append g).chars = f.chars ++ g.chars := by
  induction f with
  | nil => rfl
  | text t rest ih => simp [append, chars, ih]
  | comment t rest ih => simp [append, chars, ih]
  | single tag gap rest ih => simp [append, chars, ih]
  | paired tag children close rest _ ih => simp [append, chars, ih]

theorem nodes_append (names : List String) (f g : Forest) :
    (f.append g).nodes names = f.nodes names ++ g.nodes names := by
  induction f with
  | nil => rfl
  | text t rest ih => exact ih
  | comment t rest ih => exact ih
  | single tag gap rest ih => simp only [append, nodes, ih, List.append_assoc]
  | paired tag children close rest _ ih => simp only [append, nodes, ih, List.append_assoc]

theorem reachedNodes_append (names : List String) (f g : Forest) :
    (f.append g).reachedNodes names = f.reachedNodes names ++ g.reachedNodes names := by
  induction f with
  | nil => rfl
  | text t rest ih => exact ih
  | comment t rest ih => exact ih
  | single tag gap rest ih => simp only [append, reachedNodes, ih, List.append_assoc]
  | paired tag children close rest _ ih => simp only [append, reachedNodes, ih, List.append_assoc]

theorem nested_append {f g : Forest} : (f.append g).Nested ↔ f.Nested ∧ g.Nested := by
  induction f with
  | nil => simp [append, Nested]
  | text t rest ih => simp only [append, Nested, ih, and_assoc]
  | comment t rest ih => simp only [append, Nested, ih, and_assoc]
  | single tag gap rest ih => simp only [append, Nested, ih, and_assoc]
  | paired tag children close rest _ ih => simp only [append, Nested, ih, and_assoc]

theorem allTags_append {p : WrittenTag → Prop} {f g : Forest} :
    (f.append g).AllTags p ↔ f.AllTags p ∧ g.AllTags p := by
  induction f with
  | nil => simp [append, AllTags]
  | text t rest ih => exact ih
  | comment t rest ih => exact ih
  | single tag gap rest ih => simp only [append, AllTags, ih, and_assoc]
  | paired tag children close rest _ ih => simp only [append, AllTags, ih, and_assoc]

theorem wellFormed_append {f g : Forest} : (f.append g).WellFormed ↔ f.WellFormed ∧ g.WellFormed := by
  constructor
  · intro h
    obtain ⟨hf, hg⟩ := nested_append.mp h.nested
    obtain ⟨hf', hg'⟩ := allTags_append.mp h.plain
    exact ⟨⟨hf, hf'⟩, ⟨hg, hg'⟩⟩
  · rintro ⟨hf, hg⟩
    exact ⟨nested_append.mpr ⟨hf.nested, hg.nested⟩, allTags_append.mpr ⟨hf.plain, hg.plain⟩⟩

end Forest

/-- **The elements that the walk reaches show the nodes that the tree has for it.** -/
theorem shown_reached {doc : List Char} (names : List String) {f : Forest} {before behind : List Char}
    (hdoc : doc = before ++ (f.chars ++ behind)) :
    List.Forall₂ (Node.Shown doc) (f.reachedNodes names) (f.reached names (size before)) := by
  induction f generalizing before behind with
  | nil => exact .nil
  | text t rest ih =>
    rw [Forest.reached, ← size_append]
    exact @ih (before ++ t) behind (by rw [hdoc]; simp [Forest.chars])
  | comment t rest ih =>
    rw [Forest.reached, size_comment]
    exact @ih (before ++ ("<!--".toList ++ (t ++ "-->".toList))) behind
      (by rw [hdoc]; simp [Forest.chars])
  | single tag gap rest ih =>
    have hdoc' : doc = (before ++ (tag.text ++ ('/' :: gap ++ ['>']))) ++ (rest.chars ++ behind) := by
      rw [hdoc]
      simp [Forest.chars]
    rw [Forest.reached, Forest.reachedNodes, size_single]
    refine List.rel_append ?_ (ih hdoc')
    cases tag.nameIn? names with
    | none => exact .nil
    | some name => exact .cons (shown_single name _ _ hdoc') .nil
  | paired tag children close rest ihc ih =>
    have hdoc' : doc = (before ++ (tag.text ++ ['>'])) ++
        (children.chars ++ (close.text ++ (rest.chars ++ behind))) := by
      rw [hdoc]
      simp [Forest.chars]
    have hrest := @ih (before ++ (tag.text ++ ['>'] ++ (children.chars ++ close.text))) behind
      (by rw [hdoc]; simp [Forest.chars])
    rw [Forest.reached, Forest.reachedNodes, size_paired, size_open]
    refine List.rel_append ?_ (List.rel_append ?_ hrest)
    · cases tag.nameIn? names with
      | none => exact .nil
      | some name => exact .cons (shown_paired name _ _ _ hdoc') .nil
    · by_cases hadmits : tag.admits names = true
      · rw [if_pos hadmits, if_pos hadmits]
        exact ihc hdoc'
      · rw [if_neg hadmits, if_neg hadmits]
        exact .nil

/-- A well-formed tree is one in each node that the walk reaches. -/
theorem wellFormed_of_mem_reachedNodes {names : List String} {f : Forest} (hf : f.WellFormed) {n : Node}
    (h : n ∈ f.reachedNodes names) : n.content.WellFormed := by
  obtain ⟨hnested, hplain⟩ := hf
  induction f with
  | nil => exact absurd h List.not_mem_nil
  | text t rest ih => exact ih h hnested.2 hplain
  | comment t rest ih => exact ih h hnested.2 hplain
  | single tag gap rest ih =>
    rcases List.mem_append.mp h with h | h
    · obtain ⟨name, -, rfl⟩ := List.mem_map.mp h
      exact wellFormed_nil
    · exact ih h hnested.2.2 hplain.2
  | paired tag children close rest ihc ih =>
    obtain ⟨-, -, -, hchildren, hrest⟩ := hnested
    rcases List.mem_append.mp h with h | h
    · obtain ⟨name, -, rfl⟩ := List.mem_map.mp h
      exact ⟨hchildren, hplain.2.1⟩
    · rcases List.mem_append.mp h with h | h
      · by_cases hadmits : tag.admits names = true
        · rw [if_pos hadmits] at h
          exact ihc h hchildren hplain.2.1
        · rw [if_neg hadmits] at h
          exact absurd h List.not_mem_nil
      · exact ih h hrest hplain.2.2

/-- Where a search finds nothing, the walk for these names or fewer reaches nothing. -/
theorem reachedNodes_eq_nil {names some : List String} (hsome : ∀ s ∈ some, s ∈ names) {f : Forest}
    (h : f.nodes names = []) : f.reachedNodes some = [] := by
  have hnone : ∀ tag : WrittenTag, tag.nameIn? names = none → tag.nameIn? some = none := fun tag htag =>
    List.find?_eq_none.mpr fun s hs => List.find?_eq_none.mp htag s (hsome s hs)
  induction f with
  | nil => rfl
  | text t rest ih => exact ih h
  | comment t rest ih => exact ih h
  | single tag gap rest ih =>
    obtain ⟨hfront, hrest⟩ := List.append_eq_nil_iff.mp h
    cases hin : tag.nameIn? names with
    | none => simp [Forest.reachedNodes, hnone tag hin, ih hrest]
    | some name =>
      rw [hin] at hfront
      exact absurd hfront (by simp)
  | paired tag children close rest ihc ih =>
    obtain ⟨hfront, hrest⟩ := List.append_eq_nil_iff.mp h
    cases hin : tag.nameIn? names with
    | none =>
      rw [hin] at hfront
      simp [Forest.reachedNodes, hnone tag hin, ihc hfront, ih hrest]
    | some name =>
      rw [hin] at hfront
      exact absurd hfront (by simp)

/-! ## A tree with a place -/

/-- A tree with a place left open: what stands there is followed by a tree, or stands behind some part of
one, or inside an element. -/
inductive Context
  | here (rest : Forest)
  | text (t : List Char) (within : Context)
  | comment (t : List Char) (within : Context)
  | single (tag : WrittenTag) (gap : List Char) (within : Context)
  | beside (tag : WrittenTag) (children : Forest) (close : WrittenClose) (within : Context)
  | inside (tag : WrittenTag) (within : Context) (close : WrittenClose) (rest : Forest)

namespace Context

/-- The tree with another one in the place. -/
@[grind =]
def fill : Context → Forest → Forest
  | here rest, x => x.append rest
  | text t c, x => .text t (c.fill x)
  | comment t c, x => .comment t (c.fill x)
  | single tag gap c, x => .single tag gap (c.fill x)
  | beside tag children close c, x => .paired tag children close (c.fill x)
  | inside tag c close rest, x => .paired tag (c.fill x) close rest

/-- The text before the place. -/
@[grind =]
def before : Context → List Char
  | here _ => []
  | text t c => t ++ c.before
  | comment t c => "<!--".toList ++ (t ++ "-->".toList) ++ c.before
  | single tag gap c => tag.text ++ ('/' :: gap ++ ['>']) ++ c.before
  | beside tag children close c => tag.text ++ ['>'] ++ (children.chars ++ close.text) ++ c.before
  | inside tag c _ _ => tag.text ++ ['>'] ++ c.before

/-- The text behind the place. -/
def behind : Context → List Char
  | here rest => rest.chars
  | text _ c => c.behind
  | comment _ c => c.behind
  | single _ _ c => c.behind
  | beside _ _ _ c => c.behind
  | inside _ c close rest => c.behind ++ (close.text ++ rest.chars)

/-- None of the elements around the place has one of some names. -/
def Clear (names : List String) : Context → Prop
  | here _ => True
  | text _ c => c.Clear names
  | comment _ c => c.Clear names
  | single _ _ c => c.Clear names
  | beside _ _ _ c => c.Clear names
  | inside tag c _ _ => tag.nameIn? names = none ∧ c.Clear names

/-- The walk goes on into all elements around the place. -/
def Admitted (names : List String) : Context → Prop
  | here _ => True
  | text _ c => c.Admitted names
  | comment _ c => c.Admitted names
  | single _ _ c => c.Admitted names
  | beside _ _ _ c => c.Admitted names
  | inside tag c _ _ => tag.admits names = true ∧ c.Admitted names

/-- The outermost elements of some names before the place. -/
def left (names : List String) : Context → List Node
  | here _ => []
  | text _ c => c.left names
  | comment _ c => c.left names
  | single tag gap c => (Forest.single tag gap .nil).nodes names ++ c.left names
  | beside tag children close c => (Forest.paired tag children close .nil).nodes names ++ c.left names
  | inside _ c _ _ => c.left names

/-- The outermost elements of some names behind the place. -/
def right (names : List String) : Context → List Node
  | here rest => rest.nodes names
  | text _ c => c.right names
  | comment _ c => c.right names
  | single _ _ c => c.right names
  | beside _ _ _ c => c.right names
  | inside _ c _ rest => c.right names ++ rest.nodes names

theorem chars_fill (c : Context) (x : Forest) :
    (c.fill x).chars = c.before ++ (x.chars ++ c.behind) := by
  induction c with
  | here rest => exact Forest.chars_append x rest
  | text t c ih => simp [fill, before, behind, Forest.chars, ih]
  | comment t c ih => simp [fill, before, behind, Forest.chars, ih]
  | single tag gap c ih => simp [fill, before, behind, Forest.chars, ih]
  | beside tag children close c ih => simp [fill, before, behind, Forest.chars, ih]
  | inside tag c close rest ih => simp [fill, before, behind, Forest.chars, ih]

/-- **What a search finds in the place stands between the same nodes.** -/
theorem nodes_fill {names : List String} {c : Context} (h : c.Clear names) (x : Forest) :
    (c.fill x).nodes names = c.left names ++ (x.nodes names ++ c.right names) := by
  induction c with
  | here rest => exact Forest.nodes_append names x rest
  | text t c ih => exact ih h
  | comment t c ih => exact ih h
  | single tag gap c ih => simp [fill, left, right, Forest.nodes, ih h]
  | beside tag children close c ih => simp [fill, left, right, Forest.nodes, ih h]
  | inside tag c close rest ih => simp [fill, left, right, Forest.nodes, h.1, ih h.2]

theorem size_before_text (offset : Nat) (t : List Char) (c : Context) :
    offset + size (text t c).before = offset + size t + size c.before := by
  rw [before, size_append, Nat.add_assoc]

theorem size_before_comment (offset : Nat) (t : List Char) (c : Context) :
    offset + size (comment t c).before = offset + 4 + size t + 3 + size c.before := by
  have hopen : size "<!--".toList = 4 := rfl
  have hclose : size "-->".toList = 3 := rfl
  simp only [before, size_append, hopen, hclose]
  omega

theorem size_before_single (offset : Nat) (tag : WrittenTag) (gap : List Char) (c : Context) :
    offset + size (single tag gap c).before =
      offset + size tag.text + 1 + size gap + 1 + size c.before := by
  have hslash : ('/').utf8Size = 1 := rfl
  have hgt : ('>').utf8Size = 1 := rfl
  simp only [before, size_append, size_cons, size_nil, hslash, hgt]
  omega

theorem size_before_beside (offset : Nat) (tag : WrittenTag) (children : Forest) (close : WrittenClose)
    (c : Context) : offset + size (beside tag children close c).before =
      offset + size tag.text + 1 + size children.chars + size close.text + size c.before := by
  have hgt : ('>').utf8Size = 1 := rfl
  simp only [before, size_append, size_cons, size_nil, hgt]
  omega

theorem size_before_inside (offset : Nat) (tag : WrittenTag) (c : Context) (close : WrittenClose)
    (rest : Forest) : offset + size (inside tag c close rest).before =
      offset + size tag.text + 1 + size c.before := by
  have hgt : ('>').utf8Size = 1 := rfl
  simp only [before, size_append, size_cons, size_nil, hgt]
  omega

/-- A part of a tree is nested properly if the tree is, and can be changed for another one that is. -/
theorem nested_fill {c : Context} {x : Forest} (h : (c.fill x).Nested) :
    x.Nested ∧ ∀ y : Forest, y.Nested → (c.fill y).Nested := by
  induction c with
  | here rest =>
    obtain ⟨hx, hrest⟩ := Forest.nested_append.mp h
    exact ⟨hx, fun y hy => Forest.nested_append.mpr ⟨hy, hrest⟩⟩
  | text t c ih =>
    obtain ⟨hx, hfill⟩ := ih h.2
    exact ⟨hx, fun y hy => ⟨h.1, hfill y hy⟩⟩
  | comment t c ih =>
    obtain ⟨hx, hfill⟩ := ih h.2
    exact ⟨hx, fun y hy => ⟨h.1, hfill y hy⟩⟩
  | single tag gap c ih =>
    obtain ⟨htag, hgap, hrest⟩ := h
    obtain ⟨hx, hfill⟩ := ih hrest
    exact ⟨hx, fun y hy => ⟨htag, hgap, hfill y hy⟩⟩
  | beside tag children close c ih =>
    obtain ⟨htag, hclose, hsame, hchildren, hrest⟩ := h
    obtain ⟨hx, hfill⟩ := ih hrest
    exact ⟨hx, fun y hy => ⟨htag, hclose, hsame, hchildren, hfill y hy⟩⟩
  | inside tag c close rest ih =>
    obtain ⟨htag, hclose, hsame, hinside, hrest⟩ := h
    obtain ⟨hx, hfill⟩ := ih hinside
    exact ⟨hx, fun y hy => ⟨htag, hclose, hsame, hfill y hy, hrest⟩⟩

/-- What holds of all tags of a tree holds of those of a part, and of another part if it holds of its tags. -/
theorem allTags_fill {p : WrittenTag → Prop} {c : Context} {x : Forest} (h : (c.fill x).AllTags p) :
    x.AllTags p ∧ ∀ y : Forest, y.AllTags p → (c.fill y).AllTags p := by
  induction c with
  | here rest =>
    obtain ⟨hx, hrest⟩ := Forest.allTags_append.mp h
    exact ⟨hx, fun y hy => Forest.allTags_append.mpr ⟨hy, hrest⟩⟩
  | text t c ih => exact ih h
  | comment t c ih => exact ih h
  | single tag gap c ih =>
    obtain ⟨hx, hfill⟩ := ih h.2
    exact ⟨hx, fun y hy => ⟨h.1, hfill y hy⟩⟩
  | beside tag children close c ih =>
    obtain ⟨hone, hchildren, hrest⟩ := h
    obtain ⟨hx, hfill⟩ := ih hrest
    exact ⟨hx, fun y hy => ⟨hone, hchildren, hfill y hy⟩⟩
  | inside tag c close rest ih =>
    obtain ⟨hone, hinside, hrest⟩ := h
    obtain ⟨hx, hfill⟩ := ih hinside
    exact ⟨hx, fun y hy => ⟨hone, hfill y hy, hrest⟩⟩

/-- **A part of a well-formed tree is one, and can be changed for another one.** -/
theorem wellFormed_fill {c : Context} {x : Forest} (h : (c.fill x).WellFormed) :
    x.WellFormed ∧ ∀ y : Forest, y.WellFormed → (c.fill y).WellFormed := by
  obtain ⟨hnested, hnestedFill⟩ := nested_fill h.nested
  obtain ⟨hplain, hplainFill⟩ := allTags_fill h.plain
  exact ⟨⟨hnested, hplain⟩, fun y hy => ⟨hnestedFill y hy.nested, hplainFill y hy.plain⟩⟩

end Context

/-! ## The place of an element -/

/-- A tree that is one element, as a search reports it from an offset on. -/
inductive Forest.Spells (names : List String) (start : Nat) : Forest → Element → Prop
  | single {tag : WrittenTag} (gap : List Char) {name : String} : tag.nameIn? names = some name →
      Spells names start (.single tag gap .nil)
        ⟨name, start, start + size tag.text + 1 + size gap + 1, tag.meant, .selfClosing⟩
  | paired {tag : WrittenTag} (children : Forest) (close : WrittenClose) {name : String} :
      tag.nameIn? names = some name →
      Spells names start (.paired tag children close .nil)
        ⟨name, start, start + size tag.text + 1, tag.meant,
          .paired ⟨start + size tag.text + 1, start + size tag.text + 1 + size children.chars⟩
            (start + size tag.text + 1 + size children.chars + size close.text)⟩

/-- Such an element covers the text of the tree. -/
theorem Forest.Spells.span {names : List String} {start : Nat} {x : Forest} {e : Element}
    (h : x.Spells names start e) : e.span = ⟨start, start + size x.chars⟩ := by
  have hslash : ('/').utf8Size = 1 := rfl
  have hgt : ('>').utf8Size = 1 := rfl
  cases h with
  | single gap hin =>
    simp only [Element.span, Element.stop, Forest.chars, size_append, size_cons, size_nil, hslash, hgt,
      Span.mk.injEq, true_and]
    omega
  | paired children close hin =>
    simp only [Element.span, Element.stop, Forest.chars, size_append, size_cons, size_nil, hgt,
      Span.mk.injEq, true_and]
    omega

/-- More names do not change what a name stands for. -/
theorem Forest.Spells.append {names : List String} {start : Nat} {x : Forest} {e : Element}
    (h : x.Spells names start e) (more : List String) : x.Spells (names ++ more) start e := by
  have hin : ∀ {tag : WrittenTag} {name : String}, tag.nameIn? names = some name →
      tag.nameIn? (names ++ more) = some name := fun {tag name} htag => by
    unfold WrittenTag.nameIn? at htag ⊢
    rw [List.find?_append, htag]
    rfl
  cases h with
  | single gap htag => exact .single gap (hin htag)
  | paired children close htag => exact .paired children close (hin htag)

/-- An element in two lists that are put together stands in the first or in the second. -/
theorem split_append {α : Type} {as bs xs ys : List α} {a : α} (h : xs ++ ys = as ++ a :: bs) :
    (∃ more, xs = as ++ a :: more) ∨ ∃ more, as = xs ++ more ∧ ys = more ++ a :: bs := by
  rcases List.append_eq_append_iff.mp h with ⟨more, has, hys⟩ | ⟨more, hxs, hbs⟩
  · exact Or.inr ⟨more, has, hys⟩
  · cases more with
    | nil =>
      rw [List.append_nil] at hxs
      exact Or.inr ⟨[], by rw [hxs, List.append_nil], hbs.symm⟩
    | cons b more =>
      obtain ⟨rfl, -⟩ := List.cons.inj hbs
      exact Or.inl ⟨more, hxs⟩

theorem split_singleton {α : Type} {as bs : List α} {a b : α} (h : [b] = as ++ a :: bs) :
    as = [] ∧ a = b := by
  cases as with
  | nil => exact ⟨rfl, (List.cons.inj h).1.symm⟩
  | cons c as => exact absurd (List.cons.inj h).2 (by simp)

theorem length_nodes (names : List String) (f : Forest) (offset : Nat) :
    (f.nodes names).length = (f.outermost names offset).length := by
  induction f generalizing offset with
  | nil => rfl
  | text t rest ih => exact ih _
  | comment t rest ih => exact ih _
  | single tag gap rest ih =>
    rw [Forest.nodes, Forest.outermost, List.length_append, List.length_append, ih]
    cases tag.nameIn? names <;> rfl
  | paired tag children close rest ihc ih =>
    rw [Forest.nodes, Forest.outermost, List.length_append, List.length_append, ih]
    cases tag.nameIn? names with
    | none => rw [ihc]
    | some name => rfl

/-- **An element that a search reports is a part of the tree**, and the search finds as many before it. -/
theorem exists_context_of_outermost {names : List String} {f : Forest} {offset : Nat} {as bs : List Element}
    {e : Element} (h : f.outermost names offset = as ++ e :: bs) :
    ∃ (c : Context) (x : Forest), f = c.fill x ∧ x.Spells names (offset + size c.before) e ∧
      c.Clear names ∧ (c.left names).length = as.length := by
  induction f generalizing offset as bs with
  | nil => exact absurd h (by simp [Forest.outermost])
  | text t rest ih =>
    obtain ⟨c, x, rfl, hspells, hc⟩ := ih h
    refine ⟨.text t c, x, rfl, ?_, hc⟩
    rw [Context.size_before_text]
    exact hspells
  | comment t rest ih =>
    obtain ⟨c, x, rfl, hspells, hc⟩ := ih h
    refine ⟨.comment t c, x, rfl, ?_, hc⟩
    rw [Context.size_before_comment]
    exact hspells
  | single tag gap rest ih =>
    rw [Forest.outermost] at h
    rcases split_append h with ⟨more, hfront⟩ | ⟨more, rfl, hbehind⟩
    · cases hin : tag.nameIn? names with
      | none =>
        rw [hin] at hfront
        exact absurd hfront (by simp)
      | some name =>
        rw [hin] at hfront
        obtain ⟨rfl, rfl⟩ := split_singleton hfront
        exact ⟨.here rest, .single tag gap .nil, rfl, .single gap hin, trivial, rfl⟩
    · obtain ⟨c, x, rfl, hspells, hc, hleft⟩ := ih hbehind
      refine ⟨.single tag gap c, x, rfl, ?_, hc, ?_⟩
      · rw [Context.size_before_single]
        exact hspells
      · rw [Context.left, List.length_append, List.length_append, hleft, length_nodes names _ offset,
          Forest.outermost, Forest.outermost, List.append_nil]
  | paired tag children close rest ihc ih =>
    rw [Forest.outermost] at h
    rcases split_append h with ⟨more, hfront⟩ | ⟨more, rfl, hbehind⟩
    · cases hin : tag.nameIn? names with
      | none =>
        rw [hin] at hfront
        obtain ⟨c, x, rfl, hspells, hc, hleft⟩ := ihc hfront
        refine ⟨.inside tag c close rest, x, rfl, ?_, ⟨hin, hc⟩, hleft⟩
        rw [Context.size_before_inside]
        exact hspells
      | some name =>
        rw [hin] at hfront
        obtain ⟨rfl, rfl⟩ := split_singleton hfront
        exact ⟨.here rest, .paired tag children close .nil, rfl, .paired children close hin, trivial, rfl⟩
    · obtain ⟨c, x, rfl, hspells, hc, hleft⟩ := ih hbehind
      refine ⟨.beside tag children close c, x, rfl, ?_, hc, ?_⟩
      · rw [Context.size_before_beside]
        exact hspells
      · rw [Context.left, List.length_append, List.length_append, hleft, length_nodes names _ offset,
          Forest.outermost, Forest.outermost, List.append_nil]

/-- **So is an element that the walk reaches.** -/
theorem exists_context_of_reached {names : List String} {f : Forest} {offset : Nat} {e : Element}
    (h : e ∈ f.reached names offset) :
    ∃ (c : Context) (x : Forest), f = c.fill x ∧ x.Spells names (offset + size c.before) e ∧
      c.Admitted names := by
  induction f generalizing offset with
  | nil => exact absurd h List.not_mem_nil
  | text t rest ih =>
    obtain ⟨c, x, rfl, hspells, hc⟩ := ih h
    refine ⟨.text t c, x, rfl, ?_, hc⟩
    rw [Context.size_before_text]
    exact hspells
  | comment t rest ih =>
    obtain ⟨c, x, rfl, hspells, hc⟩ := ih h
    refine ⟨.comment t c, x, rfl, ?_, hc⟩
    rw [Context.size_before_comment]
    exact hspells
  | single tag gap rest ih =>
    rw [Forest.reached] at h
    rcases List.mem_append.mp h with h | h
    · obtain ⟨name, hname, rfl⟩ := List.mem_map.mp h
      exact ⟨.here rest, .single tag gap .nil, rfl, .single gap (Option.mem_toList.mp hname), trivial⟩
    · obtain ⟨c, x, rfl, hspells, hc⟩ := ih h
      refine ⟨.single tag gap c, x, rfl, ?_, hc⟩
      rw [Context.size_before_single]
      exact hspells
  | paired tag children close rest ihc ih =>
    rw [Forest.reached] at h
    rcases List.mem_append.mp h with h | h
    · obtain ⟨name, hname, rfl⟩ := List.mem_map.mp h
      exact ⟨.here rest, .paired tag children close .nil, rfl,
        .paired children close (Option.mem_toList.mp hname), trivial⟩
    · rcases List.mem_append.mp h with h | h
      · by_cases hadmits : tag.admits names = true
        · rw [if_pos hadmits] at h
          obtain ⟨c, x, rfl, hspells, hc⟩ := ihc h
          refine ⟨.inside tag c close rest, x, rfl, ?_, hadmits, hc⟩
          rw [Context.size_before_inside]
          exact hspells
        · rw [if_neg hadmits] at h
          exact absurd h List.not_mem_nil
      · obtain ⟨c, x, rfl, hspells, hc⟩ := ih h
        refine ⟨.beside tag children close c, x, rfl, ?_, hc⟩
        rw [Context.size_before_beside]
        exact hspells

/-! ## What stays around a place -/

/-- **What a change in one place leaves of a node**: its tag, and its content but for the change, if that is
inside. -/
structure Node.Kept (old new : List Char) (n n' : Node) : Prop where
  name : n'.name = n.name
  attrs : n'.attrs = n.attrs
  content : n'.content = n.content ∨ ∃ before behind, n.content.chars = before ++ (old ++ behind) ∧
    n'.content.chars = before ++ (new ++ behind)

theorem Node.Kept.refl (old new : List Char) (n : Node) : n.Kept old new n :=
  ⟨rfl, rfl, Or.inl rfl⟩

/-- An element around the place. -/
theorem kept_around {old new a b : List Char} (names : List String) (tag : WrittenTag) (c : Context)
    {x y : Forest} (hx : x.chars = a ++ (old ++ b)) (hy : y.chars = a ++ (new ++ b)) :
    List.Forall₂ (Node.Kept old new)
      ((tag.nameIn? names).toList.map fun name => ⟨name, tag.meant, c.fill x⟩)
      ((tag.nameIn? names).toList.map fun name => ⟨name, tag.meant, c.fill y⟩) := by
  cases tag.nameIn? names with
  | none => exact .nil
  | some name =>
    refine .cons ⟨rfl, rfl, Or.inr ⟨c.before ++ a, b ++ c.behind, ?_, ?_⟩⟩ .nil
    · rw [Context.chars_fill, hx]
      simp
    · rw [Context.chars_fill, hy]
      simp

/-- The walk reaches a place if it goes on into all elements around it. -/
theorem mem_reachedNodes_fill {names : List String} {c : Context} (hc : c.Admitted names) {x : Forest}
    {n : Node} (h : n ∈ x.reachedNodes names) : n ∈ (c.fill x).reachedNodes names := by
  induction c with
  | here rest =>
    rw [Context.fill, Forest.reachedNodes_append]
    exact List.mem_append_left _ h
  | text t c ih => exact ih hc
  | comment t c ih => exact ih hc
  | single tag gap c ih => exact List.mem_append_right _ (ih hc)
  | beside tag children close c ih => exact List.mem_append_right _ (List.mem_append_right _ (ih hc))
  | inside tag c close rest ih =>
    refine List.mem_append_right _ (List.mem_append_left _ ?_)
    rw [if_pos hc.1]
    exact ih hc.2

/-- **Of what the walk reaches, a change in one place keeps the elements around it**, and leaves all others
as they are; if the walk gets to the place, what it reaches there decides. -/
theorem rel_reachedNodes_fill {names : List String} {R : Node → Node → Prop} {x y : Forest}
    {old new a b : List Char} (hx : x.chars = a ++ (old ++ b)) (hy : y.chars = a ++ (new ++ b))
    (hR : ∀ n n', Node.Kept old new n n' → R n n')
    (h : List.Forall₂ R (x.reachedNodes names) (y.reachedNodes names)) (c : Context) :
    List.Forall₂ R ((c.fill x).reachedNodes names) ((c.fill y).reachedNodes names) := by
  have hrefl : ∀ ns : List Node, List.Forall₂ R ns ns :=
    fun ns => List.forall₂_same.mpr fun n _ => hR n n (.refl old new n)
  induction c with
  | here rest =>
    rw [Context.fill, Context.fill, Forest.reachedNodes_append, Forest.reachedNodes_append]
    exact List.rel_append h (hrefl _)
  | text t c ih => exact ih
  | comment t c ih => exact ih
  | single tag gap c ih => exact List.rel_append (hrefl _) ih
  | beside tag children close c ih => exact List.rel_append (hrefl _) (List.rel_append (hrefl _) ih)
  | inside tag c close rest ih =>
    refine List.rel_append ((kept_around names tag c hx hy).imp hR) (List.rel_append ?_ (hrefl _))
    by_cases hadmits : tag.admits names = true
    · rw [if_pos hadmits, if_pos hadmits]
      exact ih
    · rw [if_neg hadmits, if_neg hadmits]
      exact .nil

end DashboardMarkup.Markup
