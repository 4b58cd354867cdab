import DashboardMarkup.Proofs.Markup.Alike
import DashboardMarkup.Proofs.Markup.Apart

/-!
# Trees from which elements have been taken

A removal takes elements of some names out of a tree, each as a whole, and leaves out superfluous line breaks of the
rest. An element that holds none of those that were taken is as it was but for such breaks; one around them has other
content, with the same tag.

* `Forest.Thinned`: a tree and what has been left of it, with what is known of the elements that are gone and of those
  that have been kept.
* `Left`: the same of what a search finds; `nodes_thinned`: a search that sees the elements of those names.
* `Left.rel_filter`, `Left.exists_of_mem`: the elements that have been kept, in their order.
* `rel_nodes_left`, `rel_loose`: what is found inside and outside of elements of another name.
-/

namespace DashboardMarkup.Markup

open Text

/-- **A tree and what is left of it** once some elements of some names have been taken out of it, and superfluous line
breaks. An element of these names is kept as a whole or not at all. -/
inductive Forest.Thinned (names : List String) (gone kept : Node → Prop) : Forest → Forest → Prop
  | nil : Thinned names gone kept .nil .nil
  | text (t t' : List Char) {rest rest' : Forest} : Thinned names gone kept rest rest' →
      Thinned names gone kept (.text t rest) (.text t' rest')
  | comment (t t' : List Char) {rest rest' : Forest} : Thinned names gone kept rest rest' →
      Thinned names gone kept (.comment t rest) (.comment t' rest')
  | single {tag tag' : WrittenTag} (gap gap' : List Char) {rest rest' : Forest} : tag.SaysAs tag' →
      (∀ n ∈ (Forest.single tag gap .nil).nodes names, kept n) → Thinned names gone kept rest rest' →
      Thinned names gone kept (.single tag gap rest) (.single tag' gap' rest')
  | paired {tag tag' : WrittenTag} (close close' : WrittenClose) {children children' rest rest' : Forest} :
      tag.SaysAs tag' → children.Alike children' → Respaced false children.chars children'.chars →
      (∀ n ∈ (Forest.paired tag children close .nil).nodes names, kept n) → Thinned names gone kept rest rest' →
      Thinned names gone kept (.paired tag children close rest) (.paired tag' children' close' rest')
  | inside {tag tag' : WrittenTag} (close close' : WrittenClose) {children children' rest rest' : Forest} :
      tag.SaysAs tag' → tag.nameIn? names = none → (∃ n ∈ children.nodes names, gone n) →
      Thinned names gone kept children children' → Thinned names gone kept rest rest' →
      Thinned names gone kept (.paired tag children close rest) (.paired tag' children' close' rest')
  | goneSingle {tag : WrittenTag} {name : String} (gap : List Char) {rest rest' : Forest} :
      tag.nameIn? names = some name → gone ⟨name, tag.meant, .nil⟩ → Thinned names gone kept rest rest' →
      Thinned names gone kept (.single tag gap rest) rest'
  | gonePaired {tag : WrittenTag} {name : String} (close : WrittenClose) {children rest rest' : Forest} :
      tag.nameIn? names = some name → gone ⟨name, tag.meant, children⟩ → Thinned names gone kept rest rest' →
      Thinned names gone kept (.paired tag children close rest) rest'

/-- **An element and what is left of it.** -/
inductive Node.Thinned (names : List String) (gone kept : Node → Prop) : Node → Node → Prop
  | whole {n n' : Node} : n.Alike n' → (n.name ∈ names → kept n) →
      (n.name ∉ names → ∀ m ∈ n.content.nodes names, kept m) → Thinned names gone kept n n'
  | inside {n n' : Node} : n.name = n'.name → n.attrs = n'.attrs → n.name ∉ names →
      (∃ m ∈ n.content.nodes names, gone m) → n.content.Thinned names gone kept n'.content →
      Thinned names gone kept n n'

/-- **Some elements and those that are left of them**, in the same order. -/
inductive Left (names : List String) (gone kept : Node → Prop) : List Node → List Node → Prop
  | nil : Left names gone kept [] []
  | keep {n n' : Node} {ns ns' : List Node} : n.Thinned names gone kept n' → Left names gone kept ns ns' →
      Left names gone kept (n :: ns) (n' :: ns')
  | drop {n : Node} {ns ns' : List Node} : n.name ∈ names → gone n → Left names gone kept ns ns' →
      Left names gone kept (n :: ns) ns'

/-- A search for some names sees every element of other ones, and tells each by its name. -/
def Sees (searched names : List String) : Prop :=
  ∀ s ∈ names, s ∈ searched ∧ ∀ t ∈ searched, lower t.toList = lower s.toList → t = s

instance (searched names : List String) : Decidable (Sees searched names) :=
  inferInstanceAs (Decidable (∀ s ∈ names, _))

theorem nameIn?_sees {searched names : List String} (h : Sees searched names) (tag : WrittenTag) :
    (∃ s ∈ names, tag.nameIn? names = some s ∧ tag.nameIn? searched = some s) ∨
      (tag.nameIn? names = none ∧ ∀ s, tag.nameIn? searched = some s → s ∉ names) := by
  have hlower : ∀ {s : String} {among : List String}, tag.nameIn? among = some s →
      lower tag.name = lower s.toList := fun hin =>
    beq_iff_eq.mp (@List.find?_some _ (fun name : String => lower tag.name == lower name.toList) _ _ hin)
  cases hin : tag.nameIn? names with
  | none =>
    refine .inr ⟨rfl, fun s hs hmem => ?_⟩
    exact List.find?_eq_none.mp hin s hmem (beq_iff_eq.mpr (hlower hs))
  | some s =>
    have hmem : s ∈ names := List.mem_of_find?_eq_some hin
    obtain ⟨hsearched, hdistinct⟩ := h s hmem
    refine .inl ⟨s, hmem, rfl, ?_⟩
    cases ht : tag.nameIn? searched with
    | none => exact absurd (beq_iff_eq.mpr (hlower hin)) (List.find?_eq_none.mp ht s hsearched)
    | some t => rw [hdistinct t (List.mem_of_find?_eq_some ht) ((hlower ht).symm.trans (hlower hin))]

/-- What is not left out of a search is seen by it. -/
theorem Foreign.sees {left : String} {names : List String} (h : Foreign left names) (hnames : Sees names names) :
    Sees (left :: names) names := by
  refine fun s hs => ⟨List.mem_cons_of_mem left hs, fun t ht hlower => ?_⟩
  rcases List.mem_cons.mp ht with rfl | ht
  · exact absurd hlower.symm (h s hs)
  · exact (hnames s hs).2 t ht hlower

section

variable {names searched : List String} {gone kept : Node → Prop} {f g : Forest} {n n' : Node} {ns ns' ms ms' : List Node}

/-! ## Trees in which nothing is gone -/

theorem Forest.Alike.thinned (h : f.Alike g) (hkept : ∀ n ∈ f.nodes names, kept n) : f.Thinned names gone kept g := by
  induction h with
  | nil => exact .nil
  | text t t' _ ih => exact .text t t' (ih hkept)
  | comment t t' _ ih => exact .comment t t' (ih hkept)
  | single gap gap' hsays _ ih =>
    rw [Forest.nodes, List.forall_mem_append] at hkept
    refine .single gap gap' hsays ?_ (ih hkept.2)
    rw [Forest.nodes, Forest.nodes, List.append_nil]
    exact hkept.1
  | paired close close' hsays hchildren htext _ _ ih =>
    rw [Forest.nodes, List.forall_mem_append] at hkept
    refine .paired close close' hsays hchildren htext ?_ (ih hkept.2)
    rw [Forest.nodes, Forest.nodes, List.append_nil]
    exact hkept.1

namespace Node.Thinned

theorem name (h : n.Thinned names gone kept n') : n.name = n'.name := by
  cases h with
  | whole halike => exact halike.name
  | inside hname => exact hname

theorem attrs (h : n.Thinned names gone kept n') : n.attrs = n'.attrs := by
  cases h with
  | whole halike => exact halike.attrs
  | inside _ hattrs => exact hattrs

/-- An element of the names is kept as a whole. -/
theorem alike (h : n.Thinned names gone kept n') (hname : n.name ∈ names) : n.Alike n' ∧ kept n := by
  cases h with
  | whole halike hkept => exact ⟨halike, hkept hname⟩
  | inside _ _ hother => exact absurd hname hother

/-- The content of any other one is left likewise. -/
theorem content (h : n.Thinned names gone kept n') (hname : n.name ∉ names) :
    n.content.Thinned names gone kept n'.content := by
  cases h with
  | whole halike _ hkept => exact halike.content.thinned (hkept hname)
  | inside _ _ _ _ hcontent => exact hcontent

/-- An element without any of those names in it is kept as a whole. -/
theorem alike_of_nil (h : n.Thinned names gone kept n') (hnone : n.content.nodes names = []) : n.Alike n' := by
  cases h with
  | whole halike => exact halike
  | inside _ _ _ hgone =>
    obtain ⟨m, hm, -⟩ := hgone
    rw [hnone] at hm
    exact absurd hm List.not_mem_nil

end Node.Thinned

/-! ## What a search finds -/

namespace Left

theorem append (h : Left names gone kept ns ns') (h' : Left names gone kept ms ms') :
    Left names gone kept (ns ++ ms) (ns' ++ ms') := by
  induction h with
  | nil => exact h'
  | keep hn _ ih => exact .keep hn ih
  | drop hname hgone _ ih => exact .drop hname hgone ih

theorem singleton (h : n.Thinned names gone kept n') : Left names gone kept [n] [n'] :=
  .keep h .nil

end Left

/-- **Of the elements that a search finds, some are gone and the others are kept**, if it sees all elements of the
names. -/
theorem nodes_thinned (hsees : Sees searched names) (h : f.Thinned names gone kept g) :
    Left names gone kept (f.nodes searched) (g.nodes searched) := by
  -- the induction is on the tree, for in elements that are kept as a whole nothing says more than that they are alike
  induction f generalizing g with
  | nil =>
    cases h
    exact .nil
  | text t rest ih =>
    cases h with
    | text _ _ h =>
      rw [Forest.nodes, Forest.nodes]
      exact ih h
  | comment t rest ih =>
    cases h with
    | comment _ _ h =>
      rw [Forest.nodes, Forest.nodes]
      exact ih h
  | single tag gap rest ih =>
    cases h with
    | @single _ tag' _ gap' _ rest' hsays hkept h =>
      rw [Forest.nodes, Forest.nodes, ← hsays.nameIn?_eq, ← hsays.meant]
      refine Left.append ?_ (ih h)
      rcases nameIn?_sees hsees tag with ⟨s, hs, hin, hall⟩ | ⟨-, hother⟩
      · have hown : kept ⟨s, tag.meant, .nil⟩ := hkept _ (by simp [Forest.nodes, hin])
        rw [hall]
        exact .singleton (.whole (.refl _) (fun _ => hown) fun hnot => absurd hs hnot)
      · cases hall : tag.nameIn? searched with
        | none => exact .nil
        | some s =>
          exact .singleton (.whole (.refl _) (fun hmem => absurd hmem (hother s hall))
            fun _ m hm => absurd hm List.not_mem_nil)
    | @goneSingle _ name _ _ _ hin hgone h =>
      rw [Forest.nodes]
      rcases nameIn?_sees hsees tag with ⟨s, hs, hin', hall⟩ | ⟨hnone, -⟩
      · obtain rfl := Option.some.inj (hin.symm.trans hin')
        rw [hall]
        exact .drop hs hgone (ih h)
      · exact absurd (hin.symm.trans hnone) (by simp)
  | paired tag children close rest ihc ih =>
    cases h with
    | @paired _ tag' _ close' _ children' _ rest' hsays hchildren htext hkept h =>
      rw [Forest.nodes, Forest.nodes, ← hsays.nameIn?_eq, ← hsays.meant]
      refine Left.append ?_ (ih h)
      rcases nameIn?_sees hsees tag with ⟨s, hs, hin, hall⟩ | ⟨hnone, hother⟩
      · have hown : kept ⟨s, tag.meant, children⟩ := hkept _ (by simp [Forest.nodes, hin])
        rw [hall]
        exact .singleton (.whole ⟨rfl, rfl, hchildren, htext⟩ (fun _ => hown) fun hnot => absurd hs hnot)
      · have hinside : ∀ m ∈ children.nodes names, kept m :=
          fun m hm => hkept m (by simpa [Forest.nodes, hnone] using hm)
        cases hall : tag.nameIn? searched with
        | none => exact ihc (hchildren.thinned hinside)
        | some s =>
          exact .singleton (.whole ⟨rfl, rfl, hchildren, htext⟩ (fun hmem => absurd hmem (hother s hall))
            fun _ => hinside)
    | @inside _ tag' _ close' _ children' _ rest' hsays hnone hgone hchildren h =>
      rw [Forest.nodes, Forest.nodes, ← hsays.nameIn?_eq, ← hsays.meant]
      refine Left.append ?_ (ih h)
      rcases nameIn?_sees hsees tag with ⟨s, -, hin, -⟩ | ⟨-, hother⟩
      · exact absurd (hin.symm.trans hnone) (by simp)
      · cases hall : tag.nameIn? searched with
        | none => exact ihc hchildren
        | some s => exact .singleton (.inside rfl rfl (hother s hall) hgone hchildren)
    | @gonePaired _ name _ _ _ _ hin hgone h =>
      rw [Forest.nodes]
      rcases nameIn?_sees hsees tag with ⟨s, hs, hin', hall⟩ | ⟨hnone, -⟩
      · obtain rfl := Option.some.inj (hin.symm.trans hin')
        rw [hall]
        exact .drop hs hgone (ih h)
      · exact absurd (hin.symm.trans hnone) (by simp)

/-- Nothing is found that was not there. -/
theorem Forest.Thinned.nodes_eq_nil (h : f.Thinned names gone kept g) (hnone : f.nodes searched = []) :
    g.nodes searched = [] := by
  induction h with
  | nil => rfl
  | text _ _ _ ih => exact ih hnone
  | comment _ _ _ ih => exact ih hnone
  | single _ _ hsays _ _ ih =>
    obtain ⟨hown, hrest⟩ := List.append_eq_nil_iff.mp hnone
    rw [Forest.nodes, ← hsays.nameIn?_eq, ← hsays.meant, ih hrest, List.append_nil]
    exact hown
  | @paired tag _ _ _ children children' _ _ hsays hchildren _ _ _ ih =>
    obtain ⟨hown, hrest⟩ := List.append_eq_nil_iff.mp hnone
    rw [Forest.nodes, ← hsays.nameIn?_eq, ih hrest, List.append_nil]
    cases hin : tag.nameIn? searched with
    | none =>
      rw [hin] at hown
      have hnone : children.nodes searched = [] := hown
      have halike := nodes_alike hchildren searched
      rw [hnone] at halike
      exact List.forall₂_nil_left_iff.mp halike
    | some s =>
      rw [hin] at hown
      exact absurd hown (List.cons_ne_nil _ _)
  | @inside tag _ _ _ _ _ _ _ hsays _ _ _ _ ihc ih =>
    obtain ⟨hown, hrest⟩ := List.append_eq_nil_iff.mp hnone
    rw [Forest.nodes, ← hsays.nameIn?_eq, ih hrest, List.append_nil]
    cases hin : tag.nameIn? searched with
    | none =>
      rw [hin] at hown
      exact ihc hown
    | some s =>
      rw [hin] at hown
      exact absurd hown (List.cons_ne_nil _ _)
  | goneSingle _ _ _ _ ih => exact ih (List.append_eq_nil_iff.mp hnone).2
  | gonePaired _ _ _ _ ih => exact ih (List.append_eq_nil_iff.mp hnone).2

namespace Left

/-- What is kept is left of something. -/
theorem exists_of_mem (h : Left names gone kept ns ns') (hn' : n' ∈ ns') : ∃ n ∈ ns, n.Thinned names gone kept n' := by
  induction h with
  | nil => exact absurd hn' List.not_mem_nil
  | @keep m m' ms ms' hm _ ih =>
    rcases List.mem_cons.mp hn' with rfl | hn'
    · exact ⟨m, List.mem_cons_self, hm⟩
    · obtain ⟨n, hn, hthinned⟩ := ih hn'
      exact ⟨n, List.mem_cons_of_mem m hn, hthinned⟩
  | @drop m ms _ _ _ _ ih =>
    obtain ⟨n, hn, hthinned⟩ := ih hn'
    exact ⟨n, List.mem_cons_of_mem m hn, hthinned⟩

/-- What is chosen by name is left of what is chosen by name. -/
theorem filter_name (h : Left names gone kept ns ns') (p : String → Bool) :
    Left names gone kept (ns.filter fun n => p n.name) (ns'.filter fun n => p n.name) := by
  induction h with
  | nil => exact .nil
  | keep hn _ ih =>
    rw [List.filter_cons, List.filter_cons, ← hn.name]
    split
    · exact .keep hn ih
    · exact ih
  | drop hname hgone _ ih =>
    rw [List.filter_cons]
    split
    · exact .drop hname hgone ih
    · exact ih

/-- **Elements of other names are all kept.** -/
theorem rel_of_not_mem (h : Left names gone kept ns ns') (hother : ∀ n ∈ ns, n.name ∉ names) :
    List.Forall₂ (Node.Thinned names gone kept) ns ns' := by
  induction h with
  | nil => exact .nil
  | keep hn _ ih => exact .cons hn (ih fun m hm => hother m (List.mem_cons_of_mem _ hm))
  | drop hname _ _ _ => exact absurd hname (hother _ List.mem_cons_self)

/-- **Those that are not such as are gone are kept**, with those that are not such among the elements that are left. -/
theorem rel_filter (h : Left names gone kept ns ns') (hnames : ∀ n ∈ ns, n.name ∈ names) {p : Node → Bool}
    (hgone : ∀ n, gone n → p n = true) (halike : ∀ n n', n.Alike n' → p n' = p n) :
    List.Forall₂ Node.Alike (ns.filter fun n => !p n) (ns'.filter fun n => !p n) := by
  induction h with
  | nil => exact .nil
  | @keep n n' ms ms' hn _ ih =>
    have hrest := ih fun m hm => hnames m (List.mem_cons_of_mem _ hm)
    obtain ⟨hsame, -⟩ := hn.alike (hnames n List.mem_cons_self)
    rw [List.filter_cons, List.filter_cons, halike n n' hsame]
    split
    · exact .cons hsame hrest
    · exact hrest
  | @drop n ms _ _ hn _ ih =>
    rw [List.filter_cons, hgone n hn]
    exact ih fun m hm => hnames m (List.mem_cons_of_mem _ hm)

/-- What is found in some elements, one after another. -/
theorem flatMap {gs gs' : List Node} {find : Node → List Node} {R : Node → Node → Prop} (h : List.Forall₂ R gs gs')
    (hfind : ∀ g g', R g g' → Left names gone kept (find g) (find g')) :
    Left names gone kept (gs.flatMap find) (gs'.flatMap find) := by
  induction h with
  | nil => exact .nil
  | cons hg _ ih =>
    rw [List.flatMap_cons, List.flatMap_cons]
    exact (hfind _ _ hg).append ih

end Left

/-! ## Inside and outside of elements of another name -/

section

variable {left : String} (hforeign : Foreign left names) (hnames : Sees names names) (hapart : f.Apart left names)
  (h : f.Thinned names gone kept g)

include hforeign hnames hapart h

/-- No element of the names holds one that is left out, as before. -/
theorem Forest.Thinned.apart : g.Apart left names := by
  intro n' hn' hne
  obtain ⟨n, hn, hthinned⟩ := (nodes_thinned (hforeign.sees hnames) h).exists_of_mem hn'
  rw [← hthinned.name] at hne
  have hname : n.name ∈ names := (List.mem_cons.mp (name_of_mem_nodes hn)).resolve_left hne
  have hnone := nodes_alike (hthinned.alike hname).1.content [left]
  rw [hapart n hn hne] at hnone
  exact List.forall₂_nil_left_iff.mp hnone

/-- **The elements that are left out stay**, with what is left of their content. -/
theorem rel_nodes_left : List.Forall₂ (Node.Thinned names gone kept) (f.nodes [left]) (g.nodes [left]) := by
  rw [nodes_left_of_apart hforeign hapart, nodes_left_of_apart hforeign (h.apart hforeign hnames hapart)]
  refine ((nodes_thinned (hforeign.sees hnames) h).filter_name (· == left)).rel_of_not_mem fun n hn => ?_
  rw [beq_iff_eq.mp (List.mem_filter.mp hn).2]
  exact hforeign.not_mem

end

/-- **Of the elements outside those that are left out**, some are gone and the others are kept. -/
theorem rel_loose {left : String} (hforeign : Foreign left names) (hnames : Sees names names)
    (h : f.Thinned names gone kept g) : Left names gone kept (f.loose left names) (g.loose left names) :=
  (nodes_thinned (hforeign.sees hnames) h).filter_name (· != left)

theorem name_of_mem_loose {left : String} (hn : n ∈ f.loose left names) : n.name ∈ names := by
  obtain ⟨hmem, hne⟩ := List.mem_filter.mp hn
  exact (List.mem_cons.mp (name_of_mem_nodes hmem)).resolve_left (bne_iff_ne.mp hne)

end

end DashboardMarkup.Markup
