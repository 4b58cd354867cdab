import DashboardMarkup.Edit.Address
import DashboardMarkup.Proofs.Markup.Standing

/-!
# The walk through the containers

`walk` searches a span, and then the content of every container it has found. `Reached` says what comes
of that without the recursion on spans; the proofs here follow it.

* `walk_eq_ok`: a walk that succeeds reaches what `Reached` says.
* `settled_of_walk`: of two elements that are reached, the first one holds the second, or it lies before
  it with a tag between them. This is true of any document.
* `walk_ne_misplaced`: a walk through a span that fits never looks where no text is.
-/

namespace DashboardMarkup.Markup

open Text

/-! ## Running a reader over a list -/

theorem exceptMapM_cons {ε α β : Type} (f : α → Except ε β) (x : α) (xs : List α) :
    (x :: xs).mapM f = (f x).bind fun y => (xs.mapM f).map (y :: ·) := by
  rw [List.mapM_cons]
  cases f x with
  | error e => rfl
  | ok y => cases xs.mapM f <;> rfl

theorem exceptMapM_eq_error {ε α β : Type} {f : α → Except ε β} {xs : List α} {e : ε}
    (h : xs.mapM f = .error e) : ∃ x ∈ xs, f x = .error e := by
  induction xs with
  | nil => exact absurd h (by simp [pure, Except.pure])
  | cons x xs ih =>
    rw [exceptMapM_cons] at h
    cases hx : f x with
    | error e' =>
      rw [hx] at h
      obtain rfl := Except.error.inj h
      exact ⟨x, List.mem_cons_self, hx⟩
    | ok y =>
      rw [hx] at h
      obtain ⟨z, hz, he⟩ := ih (exceptMap_eq_error.mp h)
      exact ⟨z, List.mem_cons_of_mem x hz, he⟩

/-! ## What a walk reaches -/

/-- The elements reached from one that has been found: itself, and those in its content. -/
def walkFrom (doc : List Char) (names : List String) (e : Element) : Except Fault (List Element) :=
  match e.entered? with
  | some inner => (walk doc names inner).map (e :: ·)
  | none => .ok [e]

/-- A walk searches its span and goes on from every element it has found. -/
theorem walk_eq (doc : List Char) (names : List String) (span : Span) :
    walk doc names span =
      (find doc span names).bind fun found =>
        (found.mapM (walkFrom doc names)).map List.flatten := by
  rw [walk]
  split
  · next fault h => rw [h]; rfl
  · next found h =>
    rw [h]
    rw [List.mapM_subtype (g := walkFrom doc names), List.unattach_attach]
    · simp only [Except.bind]
      cases found.mapM (walkFrom doc names) <;> rfl
    · intro e he
      unfold walkFrom
      simp only
      split <;> split <;> simp_all

/-- The elements reached from those of a list: each of them and, behind a container, the elements reached
from those found in its content. -/
inductive Reached (doc : List Char) (names : List String) : List Element → List Element → Prop
  | nil : Reached doc names [] []
  | leaf {e : Element} {roots reached : List Element} (entered : e.entered? = none)
      (tail : Reached doc names roots reached) : Reached doc names (e :: roots) (e :: reached)
  | enter {e : Element} {inner : Span} {found inside roots reached : List Element}
      (entered : e.entered? = some inner) (found_eq : find doc inner names = .ok found)
      (content : Reached doc names found inside) (tail : Reached doc names roots reached) :
      Reached doc names (e :: roots) (e :: (inside ++ reached))

/-- What is reached from an element comes first. -/
theorem Reached.cons_cases {doc : List Char} {names : List String} {e : Element} {roots all : List Element}
    (h : Reached doc names (e :: roots) all) :
    ∃ inside rest, all = e :: (inside ++ rest) ∧ Reached doc names roots rest ∧
      match e.entered? with
      | some inner => ∃ found, find doc inner names = .ok found ∧ Reached doc names found inside
      | none => inside = [] := by
  cases h with
  | @leaf _ _ rest entered tail =>
    refine ⟨[], rest, rfl, tail, ?_⟩
    rw [entered]
  | @enter _ inner found inside _ rest entered found_eq content tail =>
    refine ⟨inside, rest, rfl, tail, ?_⟩
    rw [entered]
    exact ⟨found, found_eq, content⟩

/-- What a list yields, element by element, if a walk into each of their contents is known. -/
theorem reached_of_mapM {doc : List Char} {names : List String} {roots : List Element}
    {parts : List (List Element)}
    (hwalk : ∀ e ∈ roots, ∀ inner all, e.entered? = some inner → walk doc names inner = .ok all →
      ∃ found, find doc inner names = .ok found ∧ Reached doc names found all)
    (h : roots.mapM (walkFrom doc names) = .ok parts) : Reached doc names roots parts.flatten := by
  induction roots generalizing parts with
  | nil =>
    obtain rfl := Except.ok.inj h
    exact .nil
  | cons e roots ih =>
    rw [exceptMapM_cons] at h
    cases he : walkFrom doc names e with
    | error fault =>
      rw [he] at h
      exact absurd h (by simp [Except.bind])
    | ok part =>
      rw [he] at h
      obtain ⟨parts, hparts, rfl⟩ := exceptMap_eq_ok.mp h
      have htail := ih (fun e' he' => hwalk e' (List.mem_cons_of_mem e he')) hparts
      unfold walkFrom at he
      split at he
      · next inner hi =>
        obtain ⟨inside, hinside, rfl⟩ := exceptMap_eq_ok.mp he
        obtain ⟨found, hfound, hcontent⟩ := hwalk e List.mem_cons_self inner inside hi hinside
        exact .enter hi hfound hcontent htail
      · next hi =>
        obtain rfl := Except.ok.inj he
        exact .leaf hi htail

theorem Reached.mapM {doc : List Char} {names : List String} {roots all : List Element}
    (h : Reached doc names roots all) :
    ∃ parts, roots.mapM (walkFrom doc names) = .ok parts ∧ parts.flatten = all := by
  induction h with
  | nil => exact ⟨[], rfl, rfl⟩
  | @leaf e roots reached entered _ ih =>
    obtain ⟨parts, hparts, rfl⟩ := ih
    refine ⟨[e] :: parts, ?_, rfl⟩
    rw [exceptMapM_cons, hparts, walkFrom, entered]
    rfl
  | @enter e inner found inside roots reached entered found_eq _ _ ihc ih =>
    obtain ⟨parts, hparts, rfl⟩ := ih
    obtain ⟨parts', hparts', rfl⟩ := ihc
    have hinside : walk doc names inner = .ok parts'.flatten := by
      rw [walk_eq, found_eq]
      exact exceptMap_eq_ok.mpr ⟨parts', hparts', rfl⟩
    refine ⟨(e :: parts'.flatten) :: parts, ?_, rfl⟩
    rw [exceptMapM_cons, hparts, walkFrom, entered]
    simp only [hinside]
    rfl

/-- **A walk that succeeds reaches the elements found in its span and those found in their contents.** -/
theorem walk_eq_ok {doc : List Char} {names : List String} {span : Span} {all : List Element} :
    walk doc names span = .ok all ↔
      ∃ roots, find doc span names = .ok roots ∧ Reached doc names roots all := by
  constructor
  · intro h
    -- the contents are shorter spans
    induction hn : span.stop - span.start using Nat.strongRecOn generalizing span all with
    | _ n ih =>
      rw [walk_eq] at h
      cases hfind : find doc span names with
      | error fault =>
        rw [hfind] at h
        exact absurd h (by simp [Except.bind])
      | ok roots =>
        rw [hfind] at h
        obtain ⟨parts, hparts, rfl⟩ := exceptMap_eq_ok.mp h
        refine ⟨roots, rfl, reached_of_mapM ?_ hparts⟩
        intro e he inner all hi hall
        have hw := within_of_mem_find hfind e he
        have hi' := Element.inner?_of_entered? hi
        have := hw.start_le
        have := hw.start_lt_openEnd
        have := hw.stop_le
        have := hw.inner_start _ hi'
        have := hw.inner_le _ hi'
        have := hw.inner_stop_lt _ hi'
        exact ih _ (by omega) hall rfl
  · rintro ⟨roots, hroots, h⟩
    obtain ⟨parts, hparts, rfl⟩ := h.mapM
    rw [walk_eq, hroots]
    exact exceptMap_eq_ok.mpr ⟨parts, hparts, rfl⟩

/-- **A walk through a span that fits fails only for what it finds**, never for where it looks. -/
theorem walk_ne_misplaced {doc : List Char} {span : Span} (hfits : span.Fits doc) (names : List String)
    (other : Span) : walk doc names span ≠ .error (.misplaced other) := by
  induction hn : span.stop - span.start using Nat.strongRecOn generalizing span with
  | _ n ih =>
    intro h
    rw [walk_eq] at h
    cases hfind : find doc span names with
    | error fault =>
      rw [hfind] at h
      obtain rfl := Except.error.inj h
      exact find_ne_misplaced hfits names other hfind
    | ok roots =>
      rw [hfind] at h
      obtain ⟨e, he, h⟩ := exceptMapM_eq_error (exceptMap_eq_error.mp h)
      unfold walkFrom at h
      split at h
      · next inner hi =>
        have hi' := Element.inner?_of_entered? hi
        have hw := within_of_mem_find hfind e he
        have := hw.start_le
        have := hw.start_lt_openEnd
        have := hw.stop_le
        have := hw.inner_start _ hi'
        have := hw.inner_le _ hi'
        have := hw.inner_stop_lt _ hi'
        exact ih _ (by omega) ((stands_of_mem_find hfind e he).2.fits_inner hi') rfl
          (exceptMap_eq_error.mp h)
      · exact absurd h (by simp)

/-! ## How the elements that are reached lie -/

/-- An element lies before another one, with a tag between them or at the end of the first one: a `>` ends
it, or a `<` follows it that does not begin the other one. -/
def Element.Precedes (doc : List Char) (a b : Element) : Prop :=
  a.stop ≤ b.start ∧ ((∃ n, At doc n '>' ∧ n + 1 = a.stop) ∨ (At doc a.stop '<' ∧ a.stop < b.start))

/-- An element that the walk goes into holds another one in its content. -/
def Element.Holds (a b : Element) : Prop :=
  ∃ inner, a.entered? = some inner ∧ inner.start ≤ b.start ∧ b.stop ≤ inner.stop

instance Element.decidableHolds (a b : Element) : Decidable (a.Holds b) :=
  decidable_of_iff
    ((a.entered?.any fun inner => decide (inner.start ≤ b.start) && decide (b.stop ≤ inner.stop)) = true)
    (by unfold Element.Holds; cases a.entered? <;> simp)

/-- What is known of the elements that a walk reaches in a span. -/
structure Settled (doc : List Char) (names : List String) (span : Span) (all : List Element) : Prop where
  named : ∀ e ∈ all, e.name ∈ names
  stands : ∀ e ∈ all, ∃ limit, e.Stands doc limit
  within : ∀ e ∈ all, span.start ≤ e.start ∧ e.stop ≤ span.stop
  /-- An element ends with a `>`, before a `<`, or with the span. -/
  ends : ∀ e ∈ all, (∃ n, At doc n '>' ∧ n + 1 = e.stop) ∨ At doc e.stop '<' ∨ e.stop = span.stop
  order : all.Pairwise fun a b => a.Precedes doc b ∨ a.Holds b

/-- What is known of the elements that a search finds in a span. -/
structure Rooted (doc : List Char) (names : List String) (span : Span) (roots : List Element) : Prop where
  named : ∀ e ∈ roots, e.name ∈ names
  stands : ∀ e ∈ roots, e.Stands doc span.stop
  within : ∀ e ∈ roots, e.Within span
  order : roots.Pairwise fun a b => a.stop ≤ b.start

theorem rooted_of_find {doc : List Char} {span : Span} {names : List String} {roots : List Element}
    (hfits : span.Fits doc) (h : find doc span names = .ok roots) : Rooted doc names span roots where
  named e he := (stands_of_mem_find h e he).1
  stands e he := by
    have := (stands_of_mem_find h e he).2
    rwa [Nat.min_eq_left hfits.stop_le_size] at this
  within := within_of_mem_find h
  order := pairwise_of_find h

/-- Behind the first of the elements that are found, the search goes on. -/
theorem Rooted.tail {doc : List Char} {names : List String} {span : Span} {e : Element}
    {roots : List Element} (h : Rooted doc names span (e :: roots)) :
    Rooted doc names ⟨e.stop, span.stop⟩ roots where
  named e' he' := h.named e' (List.mem_cons_of_mem e he')
  stands e' he' := h.stands e' (List.mem_cons_of_mem e he')
  within e' he' :=
    { h.within e' (List.mem_cons_of_mem e he') with
      start_le := (List.pairwise_cons.mp h.order).1 e' he' }
  order := (List.pairwise_cons.mp h.order).2

/-- Of the elements found in a span, the first one precedes all that are reached from the others. -/
theorem Settled.precedes {doc : List Char} {names : List String} {span : Span} {e : Element}
    {reached : List Element} (he : e.Stands doc span.stop)
    (h : Settled doc names ⟨e.stop, span.stop⟩ reached) : ∀ b ∈ reached, e.Precedes doc b := by
  intro b hb
  obtain ⟨hstart, hstop⟩ := h.within b hb
  obtain ⟨limit, hstands⟩ := h.stands b hb
  have hlt := hstands.start_lt_stop
  refine ⟨hstart, ?_⟩
  rcases he.ends with hgt | heq
  · exact Or.inl hgt
  · simp only at hstart hstop
    omega

/-- **How the elements that are reached lie**, whatever the document: they stand in it inside the span, and
of two of them the first precedes the second or holds it. -/
theorem Reached.settled {doc : List Char} {names : List String} {roots all : List Element}
    (h : Reached doc names roots all) {span : Span} (hroots : Rooted doc names span roots) :
    Settled doc names span all := by
  induction h generalizing span with
  | nil => exact ⟨by simp, by simp, by simp, by simp, List.Pairwise.nil⟩
  | @leaf e roots reached entered _ ih =>
    have htail := ih hroots.tail
    have hmem : e ∈ e :: roots := List.mem_cons_self
    have hstands := hroots.stands e hmem
    have hwithin := hroots.within e hmem
    have hlt := hstands.start_lt_stop
    refine ⟨?_, ?_, ?_, ?_, List.pairwise_cons.mpr ⟨fun b hb => Or.inl (htail.precedes hstands b hb), htail.order⟩⟩
    · exact List.forall_mem_cons.mpr ⟨hroots.named e hmem, htail.named⟩
    · exact List.forall_mem_cons.mpr ⟨⟨_, hstands⟩, htail.stands⟩
    · refine List.forall_mem_cons.mpr ⟨⟨hwithin.start_le, hwithin.stop_le⟩, fun b hb => ?_⟩
      have := htail.within b hb
      have := hwithin.start_le
      simp only at *
      omega
    · refine List.forall_mem_cons.mpr ⟨?_, htail.ends⟩
      exact hstands.ends.imp_right Or.inr
  | @enter e inner found inside roots reached entered found_eq _ _ ihc ih =>
    have htail := ih hroots.tail
    have hmem : e ∈ e :: roots := List.mem_cons_self
    have hstands := hroots.stands e hmem
    have hwithin := hroots.within e hmem
    have hlt := hstands.start_lt_stop
    have hi := Element.inner?_of_entered? entered
    have hinside := ihc (rooted_of_find (hstands.fits_inner hi) found_eq)
    have hinner := hwithin.inner_start _ hi
    have hopen := hwithin.start_lt_openEnd
    have hclose := hwithin.inner_stop_lt _ hi
    -- an element in the content ends before the close tag
    have hends : ∀ a ∈ inside, (∃ n, At doc n '>' ∧ n + 1 = a.stop) ∨ At doc a.stop '<' := by
      intro a ha
      rcases hinside.ends a ha with h | h | h
      · exact Or.inl h
      · exact Or.inr h
      · exact Or.inr (h ▸ hstands.at_inner_stop hi)
    have hcross : ∀ a ∈ inside, ∀ b ∈ reached, a.Precedes doc b := by
      intro a ha b hb
      have hb := (htail.within b hb).1
      have ha' := (hinside.within a ha).2
      simp only at hb
      exact ⟨by omega, (hends a ha).imp_right fun h => ⟨h, by omega⟩⟩
    refine ⟨?_, ?_, ?_, ?_, ?_⟩
    · exact List.forall_mem_cons.mpr
        ⟨hroots.named e hmem, List.forall_mem_append.mpr ⟨hinside.named, htail.named⟩⟩
    · exact List.forall_mem_cons.mpr
        ⟨⟨_, hstands⟩, List.forall_mem_append.mpr ⟨hinside.stands, htail.stands⟩⟩
    · refine List.forall_mem_cons.mpr ⟨⟨hwithin.start_le, hwithin.stop_le⟩,
        List.forall_mem_append.mpr ⟨fun a ha => ?_, fun b hb => ?_⟩⟩
      · have := hinside.within a ha
        have := hwithin.start_le
        have := hwithin.stop_le
        omega
      · have := htail.within b hb
        have := hwithin.start_le
        simp only at *
        omega
    · refine List.forall_mem_cons.mpr ⟨hstands.ends.imp_right Or.inr,
        List.forall_mem_append.mpr ⟨fun a ha => (hends a ha).imp_right Or.inl, htail.ends⟩⟩
    · refine List.pairwise_cons.mpr ⟨?_, List.pairwise_append.mpr
        ⟨hinside.order, htail.order, fun a ha b hb => Or.inl (hcross a ha b hb)⟩⟩
      refine List.forall_mem_append.mpr ⟨fun a ha => Or.inr ⟨inner, entered, ?_⟩,
        fun b hb => Or.inl (htail.precedes hstands b hb)⟩
      exact hinside.within a ha

/-- **What a walk reaches in a span that fits.** -/
theorem settled_of_walk {doc : List Char} {names : List String} {span : Span} {all : List Element}
    (hfits : span.Fits doc) (h : walk doc names span = .ok all) : Settled doc names span all := by
  obtain ⟨roots, hroots, hreached⟩ := walk_eq_ok.mp h
  exact hreached.settled (rooted_of_find hfits hroots)

theorem Settled.sublist {doc : List Char} {names : List String} {span : Span} {all part : List Element}
    (h : Settled doc names span all) (hpart : part.Sublist all) : Settled doc names span part where
  named e he := h.named e (hpart.subset he)
  stands e he := h.stands e (hpart.subset he)
  within e he := h.within e (hpart.subset he)
  ends e he := h.ends e (hpart.subset he)
  order := h.order.sublist hpart

theorem Settled.fits_span {doc : List Char} {names : List String} {span : Span} {all : List Element}
    (h : Settled doc names span all) : ∀ e ∈ all, e.span.Fits doc := by
  intro e he
  obtain ⟨limit, hstands⟩ := h.stands e he
  exact hstands.fits_span

/-! ## Elements with an id -/

theorem elementsById_eq_ok {doc : List Char} {names : List String} {id : String}
    {found : List Element} :
    elementsById doc names id = .ok found ↔
      ∃ all, walk doc (searchedNames names) ⟨0, size doc⟩ = .ok all ∧
        all.filter (·.answers names id) = found := by
  unfold elementsById findById
  exact exceptMap_eq_ok

theorem elementsById_ne_misplaced (doc : List Char) (names : List String) (id : String) (span : Span) :
    elementsById doc names id ≠ .error (.misplaced span) := by
  intro h
  unfold elementsById findById at h
  exact walk_ne_misplaced (Span.fits_whole doc) _ span (exceptMap_eq_error.mp h)

/-- **How the elements with an id lie in a document.** -/
theorem settled_of_elementsById {doc : List Char} {names : List String} {id : String}
    {found : List Element} (h : elementsById doc names id = .ok found) :
    Settled doc names ⟨0, size doc⟩ found := by
  obtain ⟨all, hall, rfl⟩ := elementsById_eq_ok.mp h
  have hsettled := settled_of_walk (Span.fits_whole doc) hall
  refine { hsettled.sublist List.filter_sublist with named := fun e he => ?_ }
  have hanswers := (List.mem_filter.mp he).2
  unfold Element.answers at hanswers
  rw [Bool.and_eq_true, List.contains_iff_mem] at hanswers
  exact hanswers.1

/-- Where the elements are no containers, none holds another one. -/
theorem Settled.pairwise_precedes {doc : List Char} {names : List String} {span : Span}
    {all : List Element} (h : Settled doc names span all)
    (hnames : ∀ name ∈ names, name ∉ containerNames) :
    all.Pairwise fun a b => a.Precedes doc b := by
  refine h.order.imp_of_mem fun {a b} ha _ hab => ?_
  rcases hab with hab | ⟨inner, hi, -⟩
  · exact hab
  · unfold Element.entered? at hi
    rw [if_neg (by simpa using hnames _ (h.named a ha))] at hi
    exact absurd hi (by simp)

end DashboardMarkup.Markup
