import DashboardMarkup.Proofs.Markup.Before

/-!
# Between elements

A grid is searched for its groups, and the ranges between them for widgets. These ranges are no trees: an
element around a group has its open tag in one of them and its close tag in another one. `Strewn` is a text
with holes in it, and what is found between them.

* `Forest.strays`: the nodes of a tree between some elements that are left out.
* `strewn_forest`: the text of a tree has its strays between the holes.
* `Strewn.find`: what is found in the ranges between the holes.
* `strays_eq_loose`: which nodes these are, if none of them holds an element that is left out.
-/

namespace DashboardMarkup.Markup

open Text

variable {names : List String}

/-! ## Texts with holes -/

/-- **A text with holes in it**, from an offset on, and the nodes that are found between them. Behind a hole
elements may end that begin before it; then come elements that begin before the next hole and end behind it. -/
inductive Strewn (names : List String) : Nat → List Char → List Span → List Node → Prop
  | part (offset : Nat) {s : List Char} {ns : List Node} : Part names s ns → Strewn names offset s [] ns
  | hole {offset : Nat} {s lead gap t : List Char} {holes : List Span} {ns ms ks : List Node} :
      Part names s ns → Leads names lead ms → gap ≠ [] →
      Strewn names (offset + size s + size lead + size gap) t holes ks →
      Strewn names offset (s ++ (lead ++ (gap ++ t)))
        (⟨offset + size s + size lead, offset + size s + size lead + size gap⟩ :: holes) (ns ++ (ms ++ ks))

namespace Strewn

theorem append {offset : Nat} {s t : List Char} {holes more : List Span} {ns ms : List Node}
    (hs : Strewn names offset s holes ns) (ht : Strewn names (offset + size s) t more ms) :
    Strewn names offset (s ++ t) (holes ++ more) (ns ++ ms) := by
  induction hs with
  | @part offset s ns hs =>
    cases ht with
    | part _ ht => exact .part offset (hs.append ht)
    | @hole _ t lead gap u holes ns' ms ks hpart hlead hgap hu =>
      have hoffset : offset + size (s ++ t) = offset + size s + size t := by
        rw [size_append]
        omega
      have hall := Strewn.hole (hs.append hpart) hlead hgap (by rw [hoffset]; exact hu)
      rw [hoffset] at hall
      simpa using hall
  | @hole offset s lead gap u holes ns ms' ks hpart hlead hgap _ ih =>
    have hoffset : offset + size (s ++ (lead ++ (gap ++ u))) =
        offset + size s + size lead + size gap + size u := by
      simp only [size_append]
      omega
    rw [hoffset] at ht
    simpa using Strewn.hole hpart hlead hgap (ih ht)

/-- Between two holes, a search finds what stands in the part behind the first one and in the text that leads
to the second one. -/
theorem find_between (hnames : ∀ name ∈ names, Searchable name) {s lead : List Char} {ns ms : List Node}
    (hpart : Part names s ns) (hlead : Leads names lead ms) (before behind : List Char) :
    ∃ es, Markup.find (before ++ ((s ++ lead) ++ behind)) ⟨size before, size before + size (s ++ lead)⟩ names =
        .ok es ∧
      List.Forall₂ (Node.Seen (before ++ ((s ++ lead) ++ behind))) (ns ++ ms) es := by
  obtain ⟨es, hes, hscan⟩ := hpart before lead behind
  obtain ⟨fs, hfs, hseen⟩ := hlead.scan hnames (before ++ s) behind
  have hlimit : size (before ++ s) + size lead = size before + size (s ++ lead) := by
    simp only [size_append]
    omega
  have hdoc : (before ++ s) ++ (lead ++ behind) = before ++ (s ++ (lead ++ behind)) := by simp
  rw [hlimit] at hfs
  rw [hdoc] at hseen
  rw [List.append_assoc s lead behind]
  refine ⟨es ++ fs, ?_, List.rel_append (hes.imp fun n e hn => hn.seen) hseen⟩
  rw [← List.append_assoc s lead behind, find_append, hscan, hfs]
  rfl

/-- **What is found in the ranges between the holes** shows the nodes between them. -/
theorem find (hnames : ∀ name ∈ names, Searchable name) {offset : Nat} {s : List Char} {holes : List Span}
    {ns : List Node} (h : Strewn names offset s holes ns) {before behind : List Char}
    (hoffset : size before = offset) :
    ∃ ess : List (List Element),
      List.Forall₂ (fun range es => Markup.find (before ++ (s ++ behind)) range names = .ok es)
        ((⟨offset, offset + size s⟩ : Span).without holes) ess ∧
      List.Forall₂ (Node.Seen (before ++ (s ++ behind))) ns ess.flatten := by
  induction h generalizing before with
  | @part offset s ns hpart =>
    by_cases hsize : 0 < size s
    · obtain ⟨es, hfind, hshown⟩ := hpart.find before behind
      refine ⟨[es], ?_, by simpa using hshown.imp fun n e hn => hn.seen⟩
      rw [Span.without, if_pos (by simp only; omega), ← hoffset]
      exact .cons hfind .nil
    · obtain rfl := size_eq_zero.mp (Nat.eq_zero_of_not_pos hsize)
      refine ⟨[], ?_, ?_⟩
      · rw [Span.without, if_neg (by simp)]
        exact .nil
      · rw [hpart.nil_inv]
        exact .nil
  | @hole offset s lead gap t holes ns ms ks hpart hlead hgap _ ih =>
    have hpos : 0 < size gap := Nat.pos_of_ne_zero fun hzero => hgap (size_eq_zero.mp hzero)
    obtain ⟨ess, hranges, hshown⟩ :=
      @ih (before ++ (s ++ (lead ++ gap))) (by simp only [size_append]; omega)
    have hdoc : (before ++ (s ++ (lead ++ gap))) ++ (t ++ behind) =
        before ++ ((s ++ (lead ++ (gap ++ t))) ++ behind) := by
      simp
    have hstop : offset + size s + size lead + size gap + size t =
        offset + size (s ++ (lead ++ (gap ++ t))) := by
      simp only [size_append]
      omega
    rw [hdoc, hstop] at hranges
    rw [hdoc] at hshown
    rw [Span.without_cons_of_meets (by simp only; omega) (by simp only [size_append]; omega)]
    obtain ⟨es, hfind, hfirst⟩ := find_between hnames hpart hlead before (gap ++ (t ++ behind))
    have hsplit : before ++ ((s ++ lead) ++ (gap ++ (t ++ behind))) =
        before ++ ((s ++ (lead ++ (gap ++ t))) ++ behind) := by
      simp
    have hbetween : size before + size (s ++ lead) = offset + size s + size lead := by
      rw [size_append]
      omega
    rw [hsplit, hbetween, hoffset] at hfind
    rw [hsplit] at hfirst
    have hall : List.Forall₂ _ ((ns ++ ms) ++ ks) (es ++ ess.flatten) := List.rel_append hfirst hshown
    rw [List.append_assoc ns ms ks] at hall
    by_cases hsize : 0 < size s + size lead
    · rw [if_pos (by simp only; omega)]
      exact ⟨es :: ess, .cons hfind hranges, hall⟩
    · -- nothing is found in an empty range, which is no range
      have hnone : es = [] := by
        rw [Markup.find, if_neg (by simp only; omega)] at hfind
        exact (Except.ok.inj hfind).symm
      rw [hnone, List.nil_append] at hall
      rw [if_neg (by simp only; omega)]
      exact ⟨ess, hranges, hall⟩

end Strewn

/-! ## Trees with holes -/

theorem nameIn?_cons (tag : WrittenTag) (first : String) (names : List String) :
    tag.nameIn? (first :: names) =
      if lower tag.name = lower first.toList then some first else tag.nameIn? names := by
  unfold WrittenTag.nameIn?
  by_cases h : lower tag.name = lower first.toList
  · simp [h]
  · have hne : (lower tag.name == lower first.toList) = false := by simpa using h
    rw [if_neg h, List.find?_cons, hne]

/-- The outermost elements among those of some names and those that are left out, without the latter. -/
def Forest.loose (left : String) (names : List String) (f : Forest) : List Node :=
  (f.nodes (left :: names)).filter (·.name != left)

/-- A tree in which no element of some names holds an element that is left out. -/
def Forest.Apart (left : String) (names : List String) (f : Forest) : Prop :=
  ∀ n ∈ f.nodes (left :: names), n.name ≠ left → n.content.nodes [left] = []

instance (left : String) (names : List String) (f : Forest) : Decidable (f.Apart left names) :=
  inferInstanceAs (Decidable (∀ n ∈ f.nodes (left :: names), _))

section

variable {left : String}

/-- A tag that is left out, and one that is not. -/
theorem nameIn?_left (hnew : left ∉ names) (tag : WrittenTag) :
    (tag.nameIn? [left] = some left ∧ tag.nameIn? (left :: names) = some left) ∨
      (tag.nameIn? [left] = none ∧ tag.nameIn? (left :: names) = tag.nameIn? names ∧
        ∀ name, tag.nameIn? names = some name → name ≠ left) := by
  by_cases h : lower tag.name = lower left.toList
  · refine Or.inl ⟨?_, ?_⟩
    · rw [nameIn?_cons, if_pos h]
    · rw [nameIn?_cons, if_pos h]
  · refine Or.inr ⟨?_, ?_, ?_⟩
    · rw [nameIn?_cons, if_neg h]
      rfl
    · rw [nameIn?_cons, if_neg h]
    · rintro name hname rfl
      exact hnew (List.mem_of_find?_eq_some hname)

theorem outermost_append (names : List String) (f g : Forest) (offset : Nat) :
    (f.append g).outermost names offset =
      f.outermost names offset ++ g.outermost names (offset + size f.chars) := by
  have hlt : size "<!--".toList = 4 := rfl
  have hgt : size "-->".toList = 3 := rfl
  have hslash : ('/').utf8Size = 1 := rfl
  have hend : ('>').utf8Size = 1 := rfl
  induction f generalizing offset with
  | nil => rfl
  | text t rest ih =>
    rw [Forest.append, Forest.outermost, Forest.outermost, ih]
    congr 2
    simp only [Forest.chars, size_append]
    omega
  | comment t rest ih =>
    rw [Forest.append, Forest.outermost, Forest.outermost, ih]
    congr 2
    simp only [Forest.chars, size_append, hlt, hgt]
    omega
  | single tag gap rest ih =>
    rw [Forest.append, Forest.outermost, Forest.outermost, ih, List.append_assoc]
    congr 3
    simp only [Forest.chars, size_append, size_cons, hslash, hend]
    omega
  | paired tag children close rest _ ih =>
    rw [Forest.append, Forest.outermost, Forest.outermost, ih, List.append_assoc]
    congr 3
    simp only [Forest.chars, size_append, size_cons, hend]
    omega

/-- **The nodes of a tree between some elements that are left out.** One that holds such an element is found
without its close tag, and so are the nodes in it. -/
def Forest.strays (left : String) (names : List String) : Forest → List Node
  | nil => []
  | text _ rest => rest.strays left names
  | comment _ rest => rest.strays left names
  | single tag gap rest =>
    (if (tag.nameIn? [left]).isSome then [] else (single tag gap nil).nodes names) ++ rest.strays left names
  | paired tag children close rest =>
    (if (tag.nameIn? [left]).isSome then []
      else if (children.nodes [left]).isEmpty then (paired tag children close nil).nodes names
      else tag.lone names ++ children.strays left names) ++ rest.strays left names

theorem strays_append (left : String) (names : List String) (f g : Forest) :
    (f.append g).strays left names = f.strays left names ++ g.strays left names := by
  induction f with
  | nil => rfl
  | text t rest ih => exact ih
  | comment t rest ih => exact ih
  | single tag gap rest ih => simp only [Forest.append, Forest.strays, ih, List.append_assoc]
  | paired tag children close rest _ ih => simp only [Forest.append, Forest.strays, ih, List.append_assoc]

/-- A well-formed tree is one in each of its strays. -/
theorem wellFormed_of_mem_strays {f : Forest} (hf : f.WellFormed) {n : Node} (h : n ∈ f.strays left names) :
    n.content.WellFormed := by
  obtain ⟨hnested, hplain⟩ := hf
  induction f with
  | nil => exact absurd h List.not_mem_nil
  | text t rest ih => exact ih h hnested.2 hplain
  | comment t rest ih => exact ih h hnested.2 hplain
  | single tag gap rest ih =>
    have hx : (Forest.single tag gap .nil).WellFormed :=
      ⟨⟨hnested.1, hnested.2.1, trivial⟩, hplain.1, trivial⟩
    rcases List.mem_append.mp h with h | h
    · split at h
      · exact absurd h List.not_mem_nil
      · exact wellFormed_of_mem_nodes hx h
    · exact ih h hnested.2.2 hplain.2
  | paired tag children close rest ihc ih =>
    obtain ⟨htag, hclose, hsame, hchildren, hrest⟩ := hnested
    have hx : (Forest.paired tag children close .nil).WellFormed :=
      ⟨⟨htag, hclose, hsame, hchildren, trivial⟩, hplain.1, hplain.2.1, trivial⟩
    rcases List.mem_append.mp h with h | h
    · split at h
      · exact absurd h List.not_mem_nil
      · split at h
        · exact wellFormed_of_mem_nodes hx h
        · rcases List.mem_append.mp h with h | h
          · obtain ⟨name, -, rfl⟩ := List.mem_map.mp h
            exact wellFormed_nil
          · exact ihc h hchildren hplain.2.1
    · exact ih h hrest hplain.2.2

/-- A tree with holes: up to the first one its text leads there. -/
def StrewnTree (left : String) (names : List String) (offset : Nat) (f : Forest) : Prop :=
  (f.nodes [left] = [] ∧ f.strays left names = f.nodes names) ∨
    ∃ lead gap rest holes ns ms, f.chars = lead ++ (gap ++ rest) ∧ Leads names lead ns ∧ gap ≠ [] ∧
      Strewn names (offset + size lead + size gap) rest holes ms ∧
      (f.outermost [left] offset).map Element.span =
        ⟨offset + size lead, offset + size lead + size gap⟩ :: holes ∧
      f.strays left names = ns ++ ms

theorem StrewnTree.strewn (hnames : ∀ name ∈ names, Searchable name) {offset : Nat} {f : Forest}
    (hf : f.WellFormed) (h : StrewnTree left names offset f) :
    Strewn names offset f.chars ((f.outermost [left] offset).map Element.span) (f.strays left names) := by
  rcases h with ⟨hnone, hall⟩ | ⟨lead, gap, rest, holes, ns, ms, hchars, hlead, hgap, hrest, hspans, hall⟩
  · rw [outermost_eq_nil hnone, hall]
    exact .part offset (part_forest hnames hf)
  · have hempty : Part names [] [] := part_of_skip fun limit after => rfl
    rw [hchars, hspans, hall]
    exact @Strewn.hole names offset _ _ _ _ _ _ _ _ hempty hlead hgap hrest

theorem StrewnTree.append (hnames : ∀ name ∈ names, Searchable name) {offset : Nat} {f g : Forest}
    (hf : f.WellFormed) (hg : g.WellFormed) (hfirst : StrewnTree left names offset f)
    (hsecond : StrewnTree left names (offset + size f.chars) g) : StrewnTree left names offset (f.append g) := by
  unfold StrewnTree
  rw [Forest.chars_append, outermost_append, Forest.nodes_append, Forest.nodes_append, strays_append,
    List.map_append]
  rcases hfirst with ⟨hnone, hall⟩ | ⟨lead, gap, rest, holes, ns, ms, hchars, hlead, hgap, hrest, hspans, hall⟩
  · rw [hnone, hall, outermost_eq_nil hnone]
    rcases hsecond with ⟨hnone', hall'⟩ |
      ⟨lead, gap, rest, holes, ns, ms, hchars, hlead, hgap, hrest, hspans, hall'⟩
    · exact Or.inl ⟨by rw [hnone', List.append_nil], by rw [hall']⟩
    · have hsize : offset + size (f.chars ++ lead) = offset + size f.chars + size lead := by
        rw [size_append, Nat.add_assoc]
      refine Or.inr ⟨f.chars ++ lead, gap, rest, holes, f.nodes names ++ ns, ms, ?_, .tree hf hlead, hgap, ?_,
        ?_, ?_⟩
      · rw [hchars, List.append_assoc]
      · rw [hsize]
        exact hrest
      · rw [hsize]
        exact hspans
      · rw [hall', List.append_assoc]
  · have hsize : offset + size f.chars = offset + size lead + size gap + size rest := by
      rw [hchars]
      simp only [size_append]
      omega
    have hmore := hsecond.strewn hnames hg
    rw [hsize] at hmore ⊢
    refine Or.inr ⟨lead, gap, rest ++ g.chars, _, ns, _, ?_, hlead, hgap, hrest.append hmore, ?_, ?_⟩
    · rw [hchars]
      simp
    · rw [hspans, List.cons_append]
    · rw [hall, List.append_assoc]

/-- An element that is left out is a hole. -/
theorem strewnTree_hole {offset : Nat} {x : Forest} {e : Element} (he : x.Spells [left] offset e)
    (hout : x.outermost [left] offset = [e]) (hstrays : x.strays left names = []) :
    StrewnTree left names offset x := by
  have hne : x.chars ≠ [] := by
    cases he with
    | single gap hin => simp [Forest.chars]
    | paired children close hin => simp [Forest.chars]
  refine Or.inr ⟨[], x.chars, [], [], [], [], by simp, .nil, hne, .part _ (part_of_skip fun _ _ => rfl), ?_,
    hstrays⟩
  rw [hout, List.map_singleton, he.span]
  rfl

/-- Of an element around a hole, the open tag leads there, and the close tag is passed over behind it. -/
theorem strewnTree_around (hnames : ∀ name ∈ names, Searchable name) {tag : WrittenTag} {children : Forest}
    {close : WrittenClose} (htag : tag.Readable) (hplain : tag.Plain) (hclose : close.Readable)
    (hout : tag.nameIn? [left] = none) {offset : Nat}
    (h : StrewnTree left names (offset + size tag.text + 1) children) :
    StrewnTree left names offset (.paired tag children close .nil) := by
  rcases h with ⟨hnone, -⟩ | ⟨lead, gap, rest, holes, ns, ms, hchars, hlead, hgap, hrest, hspans, hall⟩
  · refine Or.inl ⟨by simp [Forest.nodes, hout, hnone], ?_⟩
    simp [Forest.strays, hout, hnone]
  · have hne : children.nodes [left] ≠ [] := by
      intro hnone
      rw [outermost_eq_nil hnone] at hspans
      exact absurd hspans (by simp)
    have hend : Part names close.text [] := part_of_skip fun limit after => scan_close hclose hnames after
    have hgt : ('>').utf8Size = 1 := rfl
    have hsize : offset + size (tag.text ++ '>' :: lead) = offset + size tag.text + 1 + size lead := by
      rw [size_append, size_cons, hgt]
      omega
    refine Or.inr ⟨tag.text ++ '>' :: lead, gap, rest ++ close.text, holes ++ [], tag.lone names ++ ns,
      ms ++ [], ?_, .opened htag hplain hlead, hgap, ?_, ?_, ?_⟩
    · simp [Forest.chars, hchars]
    · rw [hsize]
      exact hrest.append (.part _ hend)
    · rw [hsize, List.append_nil]
      simpa [Forest.outermost, hout] using hspans
    · simp [Forest.strays, hout, hne, hall]

/-- The holes of a tree, and what is found between them. -/
theorem strewnTree_forest (hnames : ∀ name ∈ names, Searchable name) {f : Forest} (hf : f.WellFormed)
    (offset : Nat) : StrewnTree left names offset f := by
  obtain ⟨hnested, hplain⟩ := hf
  -- the induction is on the tree; an element is left out, or has its content between two tags
  induction f generalizing offset with
  | nil => exact Or.inl ⟨rfl, rfl⟩
  | text t rest ih =>
    have hx : (Forest.text t .nil).WellFormed := ⟨⟨hnested.1, trivial⟩, trivial⟩
    have hfront : StrewnTree left names offset (.text t .nil) := Or.inl ⟨rfl, rfl⟩
    exact hfront.append hnames hx ⟨hnested.2, hplain⟩ (ih _ hnested.2 hplain)
  | comment t rest ih =>
    have hx : (Forest.comment t .nil).WellFormed := ⟨⟨hnested.1, trivial⟩, trivial⟩
    have hfront : StrewnTree left names offset (.comment t .nil) := Or.inl ⟨rfl, rfl⟩
    exact hfront.append hnames hx ⟨hnested.2, hplain⟩ (ih _ hnested.2 hplain)
  | single tag gap rest ih =>
    have hx : (Forest.single tag gap .nil).WellFormed :=
      ⟨⟨hnested.1, hnested.2.1, trivial⟩, hplain.1, trivial⟩
    have hfront : StrewnTree left names offset (.single tag gap .nil) := by
      cases hout : tag.nameIn? [left] with
      | some name =>
        exact strewnTree_hole (.single gap hout) (by simp [Forest.outermost, hout]) (by simp [Forest.strays, hout])
      | none => exact Or.inl ⟨by simp [Forest.nodes, hout], by simp [Forest.strays, hout]⟩
    exact hfront.append hnames hx ⟨hnested.2.2, hplain.2⟩ (ih _ hnested.2.2 hplain.2)
  | paired tag children close rest ihc ih =>
    obtain ⟨htag, hclose, hsame, hchildren, hrest⟩ := hnested
    have hx : (Forest.paired tag children close .nil).WellFormed :=
      ⟨⟨htag, hclose, hsame, hchildren, trivial⟩, hplain.1, hplain.2.1, trivial⟩
    have hfront : StrewnTree left names offset (.paired tag children close .nil) := by
      cases hout : tag.nameIn? [left] with
      | some name =>
        exact strewnTree_hole (.paired children close hout) (by simp [Forest.outermost, hout])
          (by simp [Forest.strays, hout])
      | none => exact strewnTree_around hnames htag hplain.1 hclose hout (ihc _ hchildren hplain.2.1)
    exact hfront.append hnames hx ⟨hrest, hplain.2.2⟩ (ih _ hrest hplain.2.2)

/-- **The text of a tree without some of its elements.** -/
theorem strewn_forest (hnames : ∀ name ∈ names, Searchable name) {f : Forest} (hf : f.WellFormed)
    (offset : Nat) :
    Strewn names offset f.chars ((f.outermost [left] offset).map Element.span) (f.strays left names) :=
  (strewnTree_forest hnames hf offset).strewn hnames hf

/-- Without an element that is left out, this is all that is found. -/
theorem strays_eq_nodes {f : Forest} (h : f.nodes [left] = []) : f.strays left names = f.nodes names := by
  induction f with
  | nil => rfl
  | text t rest ih => exact ih h
  | comment t rest ih => exact ih h
  | single tag gap rest ih =>
    obtain ⟨hfirst, hrest⟩ := List.append_eq_nil_iff.mp h
    cases hin : tag.nameIn? [left] with
    | none => simp [Forest.strays, Forest.nodes, hin, ih hrest]
    | some name =>
      rw [hin] at hfirst
      exact absurd hfirst (by simp)
  | paired tag children close rest _ ih =>
    obtain ⟨hfirst, hrest⟩ := List.append_eq_nil_iff.mp h
    cases hin : tag.nameIn? [left] with
    | none =>
      rw [hin] at hfirst
      simp only [] at hfirst
      simp [Forest.strays, Forest.nodes, hin, hfirst, ih hrest]
    | some name =>
      rw [hin] at hfirst
      exact absurd hfirst (by simp)

/-- **If no element of some names holds one that is left out**, those between these are those outside. -/
theorem strays_eq_loose (hnew : left ∉ names) {f : Forest} (hapart : f.Apart left names) :
    f.strays left names = f.loose left names := by
  unfold Forest.loose
  induction f with
  | nil => rfl
  | text t rest ih => exact ih hapart
  | comment t rest ih => exact ih hapart
  | single tag gap rest ih =>
    have hrest := ih fun n hn => hapart n (List.mem_append_right _ hn)
    conv_rhs => rw [Forest.nodes, List.filter_append]
    rw [Forest.strays, hrest]
    congr 1
    rcases nameIn?_left hnew tag with ⟨hout, hall⟩ | ⟨hout, hall, hname⟩
    · simp [hout, hall]
    · rw [hout, hall]
      cases hin : tag.nameIn? names with
      | none => simp [Forest.nodes, hin]
      | some name => simp [Forest.nodes, hin, hname name hin]
  | paired tag children close rest ihc ih =>
    have hrest := ih fun n hn => hapart n (List.mem_append_right _ hn)
    conv_rhs => rw [Forest.nodes, List.filter_append]
    rw [Forest.strays, hrest]
    congr 1
    rcases nameIn?_left hnew tag with ⟨hout, hall⟩ | ⟨hout, hall, hname⟩
    · simp [hout, hall]
    · cases hin : tag.nameIn? names with
      | some name =>
        rw [hin] at hall
        have hempty : children.nodes [left] = [] := hapart ⟨name, tag.meant, children⟩ (by
          rw [Forest.nodes, hall]
          exact List.mem_append_left _ (List.mem_singleton.mpr rfl)) (hname name hin)
        simp [Forest.nodes, hout, hall, hin, hempty, hname name hin]
      | none =>
        rw [hin] at hall
        have hinside : children.Apart left names := fun n hn => hapart n (by
          rw [Forest.nodes, hall]
          exact List.mem_append_left _ hn)
        rw [hout, hall, ← ihc hinside]
        by_cases hnone : children.nodes [left] = []
        · simp [Forest.nodes, hin, hnone, strays_eq_nodes hnone]
        · simp [WrittenTag.lone, hin, hnone]

end

end DashboardMarkup.Markup
