import DashboardMarkup.Proofs.Edit.Exact
import DashboardMarkup.Proofs.Edit.Tree
import DashboardMarkup.Proofs.Text.Breaks
import DashboardMarkup.Proofs.Text.Outside

/-!
# Removing groups

Unlike a widget, a group may hold another group with the same id. Both are then removed, each with a span
of the document as it was, although the inner one is gone when the outer one is cut out.

* `Unnested`: no group that is removed lies in another one. Then the removal is exact: what is left is
  what stands outside the groups, white space aside.
* `size_of_removal`: otherwise as many bytes behind the groups are cut out as the inner groups are long,
  unless the removal fails.
* `removed_sublist`: in any case nothing that stands in a group is left.
* `removeGroup_exact`: all of it, so that `Unnested` is just the condition under which groups are cut out
  and nothing else.
-/

namespace DashboardMarkup

open Text Markup Splice

namespace Edit

/-! ## What a removal gains with its lines -/

/-- With its lines an element gains white space alone. -/
theorem covers_cutting {doc : List Char} {e : Element} {n : Nat} {c : Char} (h : e.span.Fits doc)
    (hc : At doc n c) (hblank : isBlank c = false) :
    (cutting doc e).span.covers n = e.span.covers n := by
  obtain ⟨before, indent, covered, ending, behind, rfl, hspan, hgrown, hindent, hending⟩ :=
    Span.wholeLines_eq_ok h
  have hcutting := Except.ok.inj (hgrown.symm.trans (wholeLines_eq_cutting h))
  have hne : ∀ text : List Char, (∀ d ∈ text, isBlank d = true) → c ∉ text := by
    intro text htext hmem
    rw [htext c hmem] at hblank
    exact absurd hblank (by simp)
  rw [← hcutting, hspan, Bool.eq_iff_iff, Span.covers_iff, Span.covers_iff]
  simp only [size_append]
  constructor
  · rintro ⟨hlo, hhi⟩
    refine ⟨?_, ?_⟩
    · by_contra hlt
      refine hne indent hindent (At.mem hc hlo ?_)
      omega
    · by_contra hlt
      have hc' : At ((before ++ indent ++ covered) ++ (ending ++ behind)) n c := by
        simpa only [List.append_assoc] using hc
      refine hne ending hending (At.mem hc' ?_ ?_)
      · simp only [size_append]
        omega
      · simp only [size_append]
        omega
  · rintro ⟨hlo, hhi⟩
    omega

/-- What stands outside of the lines of some elements stands outside of the elements. -/
theorem outside_cutting_sublist {doc : List Char} {found : List Element}
    (hfits : ∀ e ∈ found, e.span.Fits doc) :
    (outside (found.map fun e => (cutting doc e).span) 0 doc).Sublist
      (outside (found.map Element.span) 0 doc) := by
  refine outside_sublist fun n ⟨span, hspan, hn⟩ => ?_
  obtain ⟨e, he, rfl⟩ := List.mem_map.mp hspan
  obtain ⟨-, hstart, hstop⟩ := cutting_fits (hfits e he)
  refine ⟨_, List.mem_map_of_mem he, ?_⟩
  rw [Span.covers_iff] at hn ⊢
  simp only [Element.span] at hn
  omega

/-- The lines of some elements have no other characters than the elements, white space aside. -/
theorem filter_outside_cutting {doc : List Char} {found : List Element}
    (hfits : ∀ e ∈ found, e.span.Fits doc) :
    (outside (found.map fun e => (cutting doc e).span) 0 doc).filter (fun c => !isBlank c) =
      (outside (found.map Element.span) 0 doc).filter fun c => !isBlank c := by
  refine filter_outside_congr fun n c hc hblank => ?_
  rw [Bool.not_eq_true'] at hblank
  rw [Nat.zero_add, List.any_map, List.any_map, Bool.eq_iff_iff, List.any_eq_true, List.any_eq_true]
  refine exists_congr fun e => and_congr_right fun he => ?_
  simp only [Function.comp_apply]
  rw [covers_cutting (hfits e he) hc hblank]

/-! ## Groups inside groups -/

/-- None of some elements lies in another one. -/
def Unnested (found : List Element) : Prop :=
  ∀ a ∈ found, ∀ b ∈ found, ¬a.Holds b

theorem Unnested.pairwise_precedes {doc : List Char} {names : List String} {span : Span}
    {found : List Element} (hsettled : Settled doc names span found) (h : Unnested found) :
    found.Pairwise fun a b => a.Precedes doc b :=
  hsettled.order.imp_of_mem fun {a b} ha hb hab => hab.resolve_right (h a ha b hb)

/-- With their lines, too, the one of two elements lies in the other one. -/
theorem cutting_of_holds {doc : List Char} {a b : Element} {limitA limitB : Nat}
    (ha : a.Stands doc limitA) (hb : b.Stands doc limitB) (h : a.Holds b) :
    (cutting doc a).span.start < (cutting doc b).span.start ∧
      (cutting doc b).span.stop ≤ (cutting doc a).span.stop := by
  obtain ⟨inner, hi, hstart, hstop⟩ := h
  have hi := Element.inner?_of_entered? hi
  obtain ⟨-, hstartA, hstopA⟩ := cutting_fits ha.fits_span
  obtain ⟨-, hstartB, hstopB⟩ := cutting_fits hb.fits_span
  have hinner := ha.inner_start hi
  have hopen := ha.start_lt_openEnd
  have hltB := hb.start_lt_stop
  have hle := (ha.fits_inner hi).start_le_stop
  -- the tags of the outer one begin with no blank, so that the inner one does not grow over them
  have hfront := covers_cutting hb.fits_span ha.at_start (by decide)
  have hback := covers_cutting hb.fits_span (ha.at_inner_stop hi) (by decide)
  rw [Bool.eq_iff_iff, Span.covers_iff, Span.covers_iff] at hfront hback
  simp only [Element.span] at hfront hback
  have hend : inner.stop ≤ a.stop := by
    have hclose := ha.inner_stop_le hi
    omega
  omega

/-- The lines of settled elements begin one behind another, whether or not these lie apart. -/
theorem rising_cutting {doc : List Char} {names : List String} {found : List Element}
    (hsettled : Settled doc names ⟨0, size doc⟩ found) :
    found.Pairwise fun a b => (cutting doc a).span.start < (cutting doc b).span.start := by
  refine hsettled.order.imp_of_mem fun {a b} ha hb hab => ?_
  obtain ⟨limitA, hstandsA⟩ := hsettled.stands a ha
  obtain ⟨limitB, hstandsB⟩ := hsettled.stands b hb
  rcases hab with hab | hab
  · have hle := hab.wholeLines hstandsB.at_start (wholeLines_eq_cutting hstandsA.fits_span)
      (wholeLines_eq_cutting hstandsB.fits_span)
    obtain ⟨-, hstart, hstop⟩ := cutting_fits hstandsA.fits_span
    have hlt := hstandsA.start_lt_stop
    omega
  · exact (cutting_of_holds hstandsA hstandsB hab).1

/-- The ones of some elements that lie in another one of them. -/
def nested (found : List Element) : List Element :=
  found.filter fun b => decide (∃ a ∈ found, a.Holds b)

/-- The ones of some elements that lie in no other one of them. -/
def outermost (found : List Element) : List Element :=
  found.filter fun b => !decide (∃ a ∈ found, a.Holds b)

theorem nested_eq_nil_iff {found : List Element} : nested found = [] ↔ Unnested found := by
  unfold nested Unnested
  rw [List.filter_eq_nil_iff]
  simp only [decide_eq_true_eq, not_exists, not_and]
  exact ⟨fun h a ha b hb => h b hb a ha, fun h b hb a ha => h a ha b hb⟩

theorem unnested_outermost (found : List Element) : Unnested (outermost found) := by
  intro a ha b hb hholds
  have hb := (List.mem_filter.mp hb).2
  simp only [Bool.not_eq_true', decide_eq_false_iff_not, not_exists, not_and] at hb
  exact hb a (List.mem_filter.mp ha).1 hholds

/-- What an element takes away, an outermost one takes away. -/
theorem exists_outermost {doc : List Char} {names : List String} {span : Span} {found : List Element}
    (hsettled : Settled doc names span found) {n : Nat} {e : Element} (he : e ∈ found)
    (hn : (cutting doc e).span.covers n = true) :
    ∃ a ∈ outermost found, (cutting doc a).span.covers n = true := by
  -- one that lies in another one begins behind it
  generalize hstart : (cutting doc e).span.start = start
  induction start using Nat.strongRecOn generalizing e with
  | ind start ih =>
    by_cases hin : ∃ a ∈ found, a.Holds e
    · obtain ⟨a, ha, hholds⟩ := hin
      obtain ⟨limitA, hstandsA⟩ := hsettled.stands a ha
      obtain ⟨limitE, hstandsE⟩ := hsettled.stands e he
      obtain ⟨hlt, hle⟩ := cutting_of_holds hstandsA hstandsE hholds
      refine ih _ (by omega) ha ?_ rfl
      rw [Span.covers_iff] at hn ⊢
      omega
    · exact ⟨e, List.mem_filter.mpr ⟨he, by simpa using hin⟩, hn⟩

theorem outside_outermost {doc : List Char} {names : List String} {span : Span} {found : List Element}
    (hsettled : Settled doc names span found) :
    outside ((outermost found).map fun e => (cutting doc e).span) 0 doc =
      outside (found.map fun e => (cutting doc e).span) 0 doc := by
  refine outside_congr fun n _ _ => ?_
  rw [List.any_map, List.any_map, Bool.eq_iff_iff, List.any_eq_true, List.any_eq_true]
  constructor
  · rintro ⟨e, he, hn⟩
    exact ⟨e, (List.mem_filter.mp he).1, hn⟩
  · rintro ⟨e, he, hn⟩
    exact exists_outermost hsettled he hn

/-! ## What a removal leaves -/

section

variable {doc : List Char} {names : List String} {found : List Element}

/-- Cuttings have no text of their own. -/
theorem text_of_mem_cutting : ∀ s ∈ found.map (cutting doc), s.text = [] := by
  intro s hs
  obtain ⟨e, -, rfl⟩ := List.mem_map.mp hs
  rfl

/-- Elements that lie apart are cut out with their lines, and nothing else is. -/
theorem carryOut_of_unnested (hsettled : Settled doc names ⟨0, size doc⟩ found) (h : Unnested found) :
    carryOut doc (removalPlan doc (.ok found)) =
      .ok (outside (found.map fun e => (cutting doc e).span) 0 doc) := by
  obtain ⟨cut, hcut, hcarry⟩ := (placed_cutting hsettled (h.pairwise_precedes hsettled)).carryOut
  have hleft := outside_of_carries hcut text_of_mem_cutting
  rw [List.map_map] at hleft
  rw [removalPlan_eq_ok hsettled.fits_span, hcarry, hleft]
  rfl

/-- The cuts are as long, all together, as what they take away. -/
theorem size_of_carryOut (hfits : ∀ e ∈ found, e.span.Fits doc) {cut : List Char}
    (h : carryOut doc (removalPlan doc (.ok found)) = .ok cut) :
    size cut + (found.map fun e => (cutting doc e).span.length).sum = size doc := by
  rw [removalPlan_eq_ok hfits] at h
  have htotal := size_of_applyAll text_of_mem_cutting h
  rwa [List.map_map] at htotal

/-- **Over and above the elements, a removal cuts out as many bytes as the inner ones are long**, if it does
not fail. -/
theorem size_of_removal (hsettled : Settled doc names ⟨0, size doc⟩ found) {cut : List Char}
    (h : carryOut doc (removalPlan doc (.ok found)) = .ok cut) :
    size cut + ((nested found).map fun e => (cutting doc e).span.length).sum =
      size (outside (found.map fun e => (cutting doc e).span) 0 doc) := by
  have houter : Settled doc names ⟨0, size doc⟩ (outermost found) := hsettled.sublist List.filter_sublist
  have htotal := size_of_carryOut hsettled.fits_span h
  -- the outermost ones alone leave as much, and they lie apart
  have hleft := size_of_carryOut houter.fits_span
    (carryOut_of_unnested houter (unnested_outermost found))
  rw [outside_outermost hsettled] at hleft
  have hsplit := ((List.filter_append_perm (fun b => decide (∃ a ∈ found, a.Holds b)) found).map
    fun e => (cutting doc e).span.length).sum_nat
  rw [List.map_append, List.sum_append] at hsplit
  change ((nested found).map _).sum + ((outermost found).map _).sum = _ at hsplit
  omega

/-- So a removal is exact only if the elements lie apart. -/
theorem carryOut_eq_iff (hsettled : Settled doc names ⟨0, size doc⟩ found) :
    carryOut doc (removalPlan doc (.ok found)) =
      .ok (outside (found.map fun e => (cutting doc e).span) 0 doc) ↔ Unnested found := by
  refine ⟨fun h => ?_, carryOut_of_unnested hsettled⟩
  have hsize := size_of_removal hsettled h
  rw [← nested_eq_nil_iff]
  cases hnested : nested found with
  | nil => rfl
  | cons b more =>
    have hb : b ∈ found := List.mem_of_mem_filter (hnested ▸ List.mem_cons_self : b ∈ nested found)
    obtain ⟨limit, hstands⟩ := hsettled.stands b hb
    obtain ⟨-, hstart, hstop⟩ := cutting_fits hstands.fits_span
    have hlt := hstands.start_lt_stop
    have hpos : 0 < (cutting doc b).span.length := by
      unfold Span.length
      omega
    rw [hnested, List.map_cons, List.sum_cons] at hsize
    omega

/-- A removal that keeps all but white space finds as much white space as the inner elements are long. -/
theorem nested_le_of_kept (hsettled : Settled doc names ⟨0, size doc⟩ found) {cut : List Char}
    (h : carryOut doc (removalPlan doc (.ok found)) = .ok cut)
    (hkept : cut.filter (fun c => !isBlank c) =
      (outside (found.map Element.span) 0 doc).filter fun c => !isBlank c) :
    ((nested found).map fun e => (cutting doc e).span.length).sum ≤
      size ((outside (found.map fun e => (cutting doc e).span) 0 doc).filter isBlank) := by
  have hsize := size_of_removal hsettled h
  rw [← filter_outside_cutting hsettled.fits_span] at hkept
  rw [← size_filter_add isBlank cut, hkept,
    ← size_filter_add isBlank (outside (found.map fun e => (cutting doc e).span) 0 doc)] at hsize
  omega

/-- Nothing of what a cutting covers is left, whether or not the elements lie apart. -/
theorem carryOut_sublist (hsettled : Settled doc names ⟨0, size doc⟩ found) {cut : List Char}
    (h : carryOut doc (removalPlan doc (.ok found)) = .ok cut) :
    cut.Sublist (outside (found.map fun e => (cutting doc e).span) 0 doc) := by
  have hfits := hsettled.fits_span
  rw [removalPlan_eq_ok hfits] at h
  have hcuttings : ∀ s ∈ found.map (cutting doc), s.span.Fits doc := by
    intro s hs
    obtain ⟨e, he, rfl⟩ := List.mem_map.mp hs
    exact (cutting_fits (hfits e he)).1
  have hleft := sublist_of_applyAll text_of_mem_cutting hcuttings
    (List.pairwise_map.mpr (rising_cutting hsettled)) h
  rwa [List.map_map] at hleft

/-- After the cuts superfluous line breaks are left out, if anything was cut out. -/
theorem removeLines_eq (hfits : ∀ e ∈ found, e.span.Fits doc) {cut : List Char}
    (h : carryOut doc (removalPlan doc (.ok found)) = .ok cut) :
    removeLines doc (removalPlan doc (.ok found)) =
      .ok (if found = [] then cut else collapseBreaks 0 cut, found.length) := by
  rw [removalPlan_eq_ok hfits] at h ⊢
  unfold removeLines
  rw [h]
  cases found with
  | nil => rfl
  | cons e more =>
    rw [if_neg (List.cons_ne_nil e more), ← @List.length_map _ _ (e :: more) (cutting doc)]
    rfl

/-- What is left after the cuts loses line breaks alone. -/
theorem removeLines_of_carryOut (hfits : ∀ e ∈ found, e.span.Fits doc) {cut : List Char}
    (h : carryOut doc (removalPlan doc (.ok found)) = .ok cut) :
    ∃ out, removeLines doc (removalPlan doc (.ok found)) = .ok (out, found.length) ∧ out.Sublist cut ∧
      out.filter (fun c => !isBlank c) = cut.filter fun c => !isBlank c := by
  refine ⟨_, removeLines_eq hfits h, ?_⟩
  split
  · exact ⟨List.Sublist.refl _, rfl⟩
  · exact ⟨collapseBreaks_sublist 0 cut, filter_collapseBreaks (by decide) 0 cut⟩

theorem exists_carryOut_of_removeLines {plan : Except Fault (List Splice)} {removed : List Char × Nat}
    (h : removeLines doc plan = .ok removed) : ∃ cut, carryOut doc plan = .ok cut := by
  unfold removeLines at h
  cases hcarry : carryOut doc plan with
  | error span =>
    rw [hcarry] at h
    exact absurd h (by simp [bind, Except.bind])
  | ok cut => exact ⟨cut, rfl⟩

/-- **Nothing that stands in an element is left by its removal**, if this does not fail. -/
theorem removed_sublist (hsettled : Settled doc names ⟨0, size doc⟩ found) {out : List Char} {n : Nat}
    (h : removeLines doc (removalPlan doc (.ok found)) = .ok (out, n)) :
    n = found.length ∧ out.Sublist (outside (found.map Element.span) 0 doc) := by
  have hfits := hsettled.fits_span
  obtain ⟨cut, hcarry⟩ := exists_carryOut_of_removeLines h
  obtain ⟨out', hout, hsub, -⟩ := removeLines_of_carryOut hfits hcarry
  rw [h] at hout
  obtain ⟨rfl, rfl⟩ := Prod.mk.inj (Except.ok.inj hout)
  exact ⟨rfl, (hsub.trans (carryOut_sublist hsettled hcarry)).trans (outside_cutting_sublist hfits)⟩

end

/-! ## The removal of groups -/

/-- **How some groups are removed.** `removed` is the result of their removal. -/
structure GroupsRemoved (doc : List Char) (found : List Element) (removed : Edited (List Char × Nat)) :
    Prop where
  /-- The groups are cut out with their lines, and nothing else is, just if they lie apart. -/
  cut_iff : carryOut doc (removalPlan doc (.ok found)) =
    .ok (outside (found.map fun e => (cutting doc e).span) 0 doc) ↔ Unnested found
  /-- Then only white space is lost of what stands outside them. -/
  kept : Unnested found → ∃ out, removed = .ok (out, found.length) ∧
    out.filter (fun c => !isBlank c) =
      (outside (found.map Element.span) 0 doc).filter fun c => !isBlank c
  /-- Otherwise as many more bytes are lost as the inner ones are long. -/
  excess : ∀ cut, carryOut doc (removalPlan doc (.ok found)) = .ok cut →
    size cut + ((nested found).map fun e => (cutting doc e).span.length).sum =
      size (outside (found.map fun e => (cutting doc e).span) 0 doc)
  /-- More than white space is lost then, unless there is as much of it outside them. -/
  blank : ∀ cut, carryOut doc (removalPlan doc (.ok found)) = .ok cut →
    cut.filter (fun c => !isBlank c) =
        (outside (found.map Element.span) 0 doc).filter (fun c => !isBlank c) →
      ((nested found).map fun e => (cutting doc e).span.length).sum ≤
        size ((outside (found.map fun e => (cutting doc e).span) 0 doc).filter isBlank)
  /-- Nothing that stands in them is left. -/
  gone : ∀ out n, removed = .ok (out, n) →
    n = found.length ∧ out.Sublist (outside (found.map Element.span) 0 doc)

theorem groupsRemoved_of_settled {doc : List Char} {names : List String} {found : List Element}
    (hsettled : Settled doc names ⟨0, size doc⟩ found) :
    GroupsRemoved doc found (removeLines doc (removalPlan doc (.ok found))) where
  cut_iff := carryOut_eq_iff hsettled
  kept h := by
    have hfits := hsettled.fits_span
    obtain ⟨out, hout, -, hfilter⟩ := removeLines_of_carryOut hfits (carryOut_of_unnested hsettled h)
    exact ⟨out, hout, hfilter.trans (filter_outside_cutting hfits)⟩
  excess _ hcut := size_of_removal hsettled hcut
  blank _ hcut hkept := nested_le_of_kept hsettled hcut hkept
  gone _ _ hout := removed_sublist hsettled hout

theorem settled_of_doomedGroups {doc : List Char} {id : String} {found : List Element}
    (h : doomedGroups doc id = .ok found) : Settled doc ["group"] ⟨0, size doc⟩ found := by
  obtain ⟨all, hall, rfl⟩ := exceptMap_eq_ok.mp h
  exact (settled_of_elementsById hall).sublist List.filter_sublist

/-- **The removal of groups is exact just if no one of them lies in another.** For any document and any id:
a fault leaves the document as it is; groups that lie apart are cut out with their lines and nothing else,
and of the characters outside them only white space is lost; of nested groups more is cut out, by the length
of the inner ones, or the removal fails; and nothing that stands in a group is left. -/
theorem removeGroup_exact (doc : List Char) (id : String) :
    (∀ fault, doomedGroups doc id = .error fault → removeGroup doc id = .ok (doc, 0)) ∧
      ∀ found, doomedGroups doc id = .ok found → GroupsRemoved doc found (removeGroup doc id) := by
  constructor
  · intro fault hfault
    have hsame := exceptMap_eq_error.mp hfault
    unfold removeGroup
    rw [hfault]
    cases fault with
    | misplaced span => exact absurd hsame (elementsById_ne_misplaced doc ["group"] id span)
    | unterminated name start => rfl
    | unclosed name start => rfl
  · intro found hfound
    unfold removeGroup
    rw [hfound]
    exact groupsRemoved_of_settled (settled_of_doomedGroups hfound)

/-- A group in a group with the same id, and what follows them. -/
def groupInGroup (rest : Forest) : Forest :=
  .paired ⟨"group".toList, [⟨[' '], "id".toList, [], [], ['a']⟩], []⟩
    (.paired ⟨"group".toList, [⟨[' '], "id".toList, [], [], ['a']⟩], []⟩ .nil ⟨"group".toList, []⟩ .nil)
    ⟨"group".toList, []⟩ rest

theorem doomedGroups_groupInGroup {rest : Forest} (hwell : (groupInGroup rest).WellFormed)
    (hrest : rest.reached (searchedNames ["group"]) 44 = []) :
    doomedGroups (groupInGroup rest).chars "a" =
      .ok [⟨"group", 0, 14, [⟨"id", "a"⟩], .paired ⟨14, 36⟩ 44⟩,
        ⟨"group", 14, 28, [⟨"id", "a"⟩], .paired ⟨28, 28⟩ 36⟩] := by
  have hnames : ∀ name ∈ searchedNames ["group"], Searchable name := by decide
  have hvalue : Entity.decode ['a'] = ['a'] := by
    simp [Entity.decode_cons, Entity.decode_nil, Entity.read?, Entity.names, stripPrefix?]
  have hreached : (groupInGroup rest).reached (searchedNames ["group"]) 0 =
      [⟨"group", 0, 14, [⟨"id", String.ofList (Entity.decode ['a'])⟩], .paired ⟨14, 36⟩ 44⟩,
        ⟨"group", 14, 28, [⟨"id", String.ofList (Entity.decode ['a'])⟩], .paired ⟨28, 28⟩ 36⟩] ++
          rest.reached (searchedNames ["group"]) 44 := by
    rfl
  unfold doomedGroups
  rw [elementsById_wellFormed hnames hwell, hreached, hvalue, hrest]
  decide

/-- Both are cut out where they were, the inner one first. -/
theorem removeGroup_groupInGroup {rest : Forest} (hwell : (groupInGroup rest).WellFormed)
    (hrest : rest.reached (searchedNames ["group"]) 44 = [])
    (hlines : breakSize rest.chars = 0) :
    removeGroup (groupInGroup rest).chars "a" =
      (do
        let cut ← [⟨⟨14, 36⟩, []⟩, ⟨⟨0, 44⟩, []⟩].foldlM Splice.apply (groupInGroup rest).chars
        return (collapseBreaks 0 cut, 2)) := by
  have houter : (⟨0, 44⟩ : Span).wholeLines (groupInGroup rest).chars = .ok ⟨0, 44⟩ := by
    have haround : (⟨0, 44⟩ : Span).around? (groupInGroup rest).chars = some ([], rest.chars) :=
      Span.around?_eq_some.mpr
        ⟨"<group id=\"a\"><group id=\"a\"></group></group>".toList, rfl, rfl, by decide⟩
    unfold Span.wholeLines
    rw [haround]
    simp only [hlines]
    rfl
  have hinner : (⟨14, 36⟩ : Span).wholeLines (groupInGroup rest).chars = .ok ⟨14, 36⟩ := rfl
  have hplan : removalPlan (groupInGroup rest).chars (doomedGroups (groupInGroup rest).chars "a") =
      .ok [⟨⟨0, 44⟩, []⟩, ⟨⟨14, 36⟩, []⟩] := by
    rw [doomedGroups_groupInGroup hwell hrest]
    unfold removalPlan
    simp only [Except.bind]
    rw [exceptMapM_cons, exceptMapM_cons]
    simp only [Element.span, Element.stop, houter, hinner]
    rfl
  have horder : ordered [⟨⟨0, 44⟩, []⟩, ⟨⟨14, 36⟩, []⟩] = [⟨⟨14, 36⟩, []⟩, ⟨⟨0, 44⟩, []⟩] :=
    ordered_eq_reverse (by decide)
  unfold removeGroup removeLines carryOut applyAll
  rw [hplan]
  simp only [horder]
  rfl

/-- **Nested groups are not removed for what they are.** When the outer one is to be cut out, the text has
become too short, or what follows has moved into its place. -/
theorem removeGroup_nested :
    removeGroup "<group id=\"a\"><group id=\"a\"></group></group>".toList "a" = .error ⟨0, 44⟩ ∧
      removeGroup "<group id=\"a\"><group id=\"a\"></group></group><kpi id=\"k\" type=\"number\"/>".toList
        "a" = .ok ("er\"/>".toList, 2) := by
  have hempty := @removeGroup_groupInGroup .nil (by decide) rfl rfl
  have hwidget := @removeGroup_groupInGroup
    (.single ⟨"kpi".toList, [⟨[' '], "id".toList, [], [], ['k']⟩, ⟨[' '], "type".toList, [], [], "number".toList⟩],
      []⟩ [] .nil) (by decide) rfl rfl
  exact ⟨hempty, hwidget⟩

end Edit

end DashboardMarkup
