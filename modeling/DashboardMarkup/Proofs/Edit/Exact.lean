import DashboardMarkup.Edit.Insert
import DashboardMarkup.Proofs.Edit.Growth
import DashboardMarkup.Proofs.Edit.Simultaneous
import DashboardMarkup.Proofs.Text.Words

/-!
# Edits are exact

An edit plans its splices on the document as it is and then applies them one at a time. Nothing in the
types keeps a span from overlapping another one, or from ending inside a character, and either makes the
edit fail. Neither happens, for any document and any argument.

* `Splice.Sound`: a plan whose splices fit the document and lie apart, and which fails only for a fault of
  the document. There is one lemma for each way to plan an edit.
* `edits_exact`: every edit but the removal of groups replaces the spans it has planned, all at once, and
  nothing else. Where the document has a fault or nothing to be edited, it comes back unchanged.
-/

namespace DashboardMarkup

open Text (size)

/-! ## Sound plans -/

namespace Splice

/-- Splices for which a document has room: their spans fit it and lie one behind another. -/
structure Placed (doc : List Char) (splices : List Splice) : Prop where
  fits : ∀ s ∈ splices, s.span.Fits doc
  apart : splices.Pairwise fun a b => a.span.stop ≤ b.span.start
  rising : splices.Pairwise fun a b => a.span.start < b.span.start

theorem placed_nil (doc : List Char) : Placed doc [] :=
  ⟨by simp, .nil, .nil⟩

theorem placed_singleton {doc : List Char} {s : Splice} (h : s.span.Fits doc) : Placed doc [s] :=
  ⟨by simpa using h, List.pairwise_singleton _ _, List.pairwise_singleton _ _⟩

/-- Placed splices are carried out at once. -/
theorem Placed.carryOut {doc : List Char} {splices : List Splice} (h : Placed doc splices) :
    ∃ out, Carries 0 splices doc out ∧ carryOut doc (.ok splices) = .ok out := by
  have hfits : ∀ s ∈ splices, s.span.Fits ([] ++ doc) := h.fits
  obtain ⟨out, hout⟩ := carries_of_disjoint hfits (fun _ _ => Nat.zero_le _) h.apart
  exact ⟨out, hout, applyAll_of_carries hout h.rising⟩

/-- A plan that fails only for a fault of the document, and otherwise has placed splices. -/
structure Sound (doc : List Char) (plan : Except Fault (List Splice)) : Prop where
  ne_misplaced : ∀ span, plan ≠ .error (.misplaced span)
  placed : ∀ splices, plan = .ok splices → Placed doc splices

theorem sound_ok {doc : List Char} {splices : List Splice} (h : Placed doc splices) :
    Sound doc (.ok splices) where
  ne_misplaced span := by simp
  placed splices' heq := Except.ok.inj heq ▸ h

/-- A plan that begins with a step of its own. -/
theorem sound_bind {α : Type} {doc : List Char} {step : Except Fault α}
    {next : α → Except Fault (List Splice)} (hstep : ∀ span, step ≠ .error (.misplaced span))
    (hnext : ∀ a, step = .ok a → Sound doc (next a)) : Sound doc (step >>= next) := by
  cases step with
  | error fault =>
    refine ⟨fun span h => ?_, fun splices h => absurd h (by simp [bind, Except.bind])⟩
    obtain rfl := Except.error.inj h
    exact hstep span rfl
  | ok a => exact hnext a rfl

theorem carryOut_nil (doc : List Char) : carryOut doc (.ok []) = .ok doc :=
  applyAll_of_carries (.done 0 doc) .nil

theorem carryOut_of_error {doc : List Char} {plan : Except Fault (List Splice)} (h : Sound doc plan)
    {fault : Fault} (hfault : plan = .error fault) : carryOut doc plan = .ok doc := by
  subst hfault
  cases fault with
  | misplaced span => exact absurd rfl (h.ne_misplaced span)
  | unterminated name start => rfl
  | unclosed name start => rfl

end Splice

open Markup Splice

namespace Edit

/-! ## What the plans look at -/

theorem elementById_ne_misplaced (doc : List Char) (names : List String) (id : String) (span : Span) :
    elementById doc names id ≠ .error (.misplaced span) := by
  intro h
  exact elementsById_ne_misplaced doc names id span (exceptMap_eq_error.mp h)

/-- The first element with an id stands in the document. -/
theorem stands_of_elementById {doc : List Char} {names : List String} {id : String} {e : Element}
    (h : elementById doc names id = .ok (some e)) : ∃ limit, e.Stands doc limit := by
  obtain ⟨found, hfound, hhead⟩ := exceptMap_eq_ok.mp h
  exact (settled_of_elementsById hfound).stands e (List.mem_of_mem_head? hhead)

theorem findFirst_ne_misplaced {doc : List Char} {span : Span} (hfits : span.Fits doc) (name : String)
    (other : Span) : findFirst doc span name ≠ .error (.misplaced other) := by
  intro h
  exact find_ne_misplaced hfits [name] other (exceptMap_eq_error.mp h)

theorem stands_of_findFirst {doc : List Char} {span : Span} {name : String} {e : Element}
    (h : findFirst doc span name = .ok (some e)) : ∃ limit, e.Stands doc limit := by
  obtain ⟨found, hfound, hhead⟩ := exceptMap_eq_ok.mp h
  exact ⟨_, (stands_of_mem_find hfound e (List.mem_of_mem_head? hhead)).2⟩

theorem text_ne_misplaced {doc : List Char} {span : Span} (hfits : span.Fits doc) (other : Span) :
    span.text doc ≠ .error (.misplaced other) := by
  obtain ⟨covered, hcovered⟩ := hfits.text_eq_ok
  simp [hcovered]

theorem innerText_ne_misplaced {doc : List Char} {e : Element} {limit : Nat} (h : e.Stands doc limit)
    (other : Span) : e.innerText doc ≠ .error (.misplaced other) := by
  unfold Element.innerText
  split
  · next inner hi => exact text_ne_misplaced (h.fits_inner hi) other
  · simp

theorem indentAt_ne_misplaced {doc : List Char} {e : Element} {limit : Nat} (h : e.Stands doc limit)
    (other : Span) : indentAt doc e.start ≠ .error (.misplaced other) := by
  intro hx
  refine text_ne_misplaced h.fits_open.at_start.from_zero other ?_
  exact exceptMap_eq_error.mp hx

/-! ## One lemma for each way to plan an edit -/

/-- A child goes inside its element, or the element is written anew. -/
theorem sound_insertChild {doc : List Char} {e : Element} {limit : Nat} (h : e.Stands doc limit)
    (place : Place) (text : List Char) : Sound doc (insertChild doc e place text) := by
  unfold insertChild
  refine sound_bind (indentAt_ne_misplaced h) fun indent _ => ?_
  simp only
  split
  · exact sound_ok (placed_singleton h.fits_span)
  · next inner stop heq =>
    have hi : e.inner? = some inner := by
      unfold Element.inner?
      rw [heq]
    cases place with
    | first => exact sound_ok (placed_singleton (h.fits_inner hi).at_start)
    | last => exact sound_ok (placed_singleton (h.fits_inner hi).at_stop)
  · exact sound_ok (placed_nil doc)

/-- A block is written over, or goes inside its widget. -/
theorem sound_blockPlan {doc : List Char} {id name : String} {place : Place}
    {write : Option Element → Except Fault (List Char)} (hnone : ∀ span, write none ≠ .error (.misplaced span))
    (hsome : ∀ e limit, e.Stands doc limit → ∀ span, write (some e) ≠ .error (.misplaced span)) :
    Sound doc (blockPlan doc id name place write) := by
  unfold blockPlan
  refine sound_bind (elementById_ne_misplaced doc widgetNames id) fun widget hwidget => ?_
  cases widget with
  | none => exact sound_ok (placed_nil doc)
  | some w =>
    obtain ⟨limit, hw⟩ := stands_of_elementById hwidget
    refine sound_bind (findFirst_ne_misplaced hw.fits_content name) fun block hblock => ?_
    cases block with
    | none => exact sound_bind hnone fun text _ => sound_insertChild hw place text
    | some e =>
      obtain ⟨limit', he⟩ := stands_of_findFirst hblock
      exact sound_bind (hsome e limit' he) fun text _ => sound_ok (placed_singleton he.fits_span)

/-- Open tags do not overlap, not even those of an element and of one inside it. -/
theorem sound_setAttributePlan (doc : List Char) (id name value : String) :
    Sound doc (setAttributePlan doc id name value) := by
  unfold setAttributePlan
  refine sound_bind (elementsById_ne_misplaced doc nodeNames id) fun found hfound => sound_ok ?_
  have hsettled := settled_of_elementsById hfound
  have hbehind : found.Pairwise fun a b => a.openEnd ≤ b.start := by
    refine hsettled.order.imp_of_mem fun {a b} ha _ hab => ?_
    obtain ⟨limit, hstands⟩ := hsettled.stands a ha
    rcases hab with ⟨hle, -⟩ | ⟨inner, hi, hstart, -⟩
    · exact Nat.le_trans hstands.openEnd_le_stop hle
    · rw [← hstands.inner_start (Element.inner?_of_entered? hi)]
      exact hstart
  refine ⟨?_, ?_, ?_⟩
  · intro s hs
    obtain ⟨e, he, rfl⟩ := List.mem_map.mp hs
    obtain ⟨limit, hstands⟩ := hsettled.stands e he
    exact hstands.fits_open
  · exact List.pairwise_map.mpr hbehind
  · refine List.pairwise_map.mpr (hbehind.imp_of_mem fun {a b} ha _ hle => ?_)
    obtain ⟨limit, hstands⟩ := hsettled.stands a ha
    exact Nat.lt_of_lt_of_le hstands.start_lt_openEnd hle

theorem sound_setDataSourcePlan (doc : List Char) (id : String) (fields : Attributes) :
    Sound doc (setDataSourcePlan doc id fields) :=
  sound_blockPlan (by simp [pure, Except.pure]) (by simp [pure, Except.pure])

theorem sound_setTokensPlan (doc : List Char) (id tokens : String) :
    Sound doc (setTokensPlan doc id tokens) :=
  sound_blockPlan (by simp [pure, Except.pure]) (by simp [pure, Except.pure])

/-- The object in a block that stands in the document is read, or taken as empty. -/
theorem objectIn_ne_misplaced {doc : List Char} {e : Element} {limit : Nat} (h : e.Stands doc limit)
    (span : Span) : objectIn doc (some e) ≠ .error (.misplaced span) := by
  intro hx
  unfold objectIn at hx
  simp only at hx
  cases htext : e.innerText doc with
  | error fault =>
    rw [htext] at hx
    obtain rfl := Except.error.inj hx
    exact innerText_ne_misplaced h span htext
  | ok text =>
    rw [htext] at hx
    simp only [bind, Except.bind, pure, Except.pure] at hx
    split at hx <;> exact absurd hx (by simp)

theorem sound_setConfigPlan (doc : List Char) (id : String) (update : Json.Object → Json.Object) :
    Sound doc (setConfigPlan doc id update) := by
  refine sound_blockPlan (by simp [objectIn, pure, Except.pure, bind, Except.bind]) ?_
  intro e limit he span hx
  exact objectIn_ne_misplaced he span (exceptMap_eq_error.mp hx)

theorem sound_setGroupStylePlan (doc : List Char) (id : String) (style : Json.Object) :
    Sound doc (setGroupStylePlan doc id style) := by
  unfold setGroupStylePlan
  refine sound_bind (elementById_ne_misplaced doc ["group"] id) fun group hgroup => ?_
  cases group with
  | none => exact sound_ok (placed_nil doc)
  | some g =>
    obtain ⟨limit, hg⟩ := stands_of_elementById hgroup
    refine sound_bind (find_ne_misplaced hg.fits_content _) fun found hfound => ?_
    split
    · next e he =>
      exact sound_ok (placed_singleton (stands_of_mem_find hfound e (List.mem_of_find?_eq_some he)).2.fits_span)
    · exact sound_insertChild hg .first _

/-- New lines go before the blanks that indent the close tag of their group. -/
theorem sound_linesPlan (doc : List Char) (id : String) (lines : List Char) :
    Sound doc (linesPlan doc id lines) := by
  unfold linesPlan
  refine sound_bind (elementById_ne_misplaced doc ["group"] id) fun group hgroup => ?_
  cases group with
  | none => exact sound_ok (placed_nil doc)
  | some g =>
    obtain ⟨limit, hg⟩ := stands_of_elementById hgroup
    simp only
    split
    · exact sound_insertChild hg .last lines
    · next inner hi =>
      have hwhole := (hg.fits_inner hi).from_zero
      refine sound_bind (text_ne_misplaced hwhole) fun before hbefore => sound_ok (placed_singleton ?_)
      obtain ⟨front, behind, hdoc, hfront, hstop⟩ := Span.cut?_eq_some.mp (Span.text_eq_ok.mp hbefore)
      obtain rfl := Text.size_eq_zero.mp hfront
      obtain ⟨dropped, hdropped, -⟩ := Text.append_dropEndWhile Text.isLineBlank before
      have hdrop : before.drop (Text.dropEndWhile Text.isLineBlank before).length = dropped := by
        refine Eq.trans (congrArg (List.drop _) hdropped) ?_
        exact List.drop_left
      simp only
      rw [hdrop]
      have hsize := congrArg size hdropped
      rw [Text.size_append] at hsize
      simp only [Text.size_nil, Nat.zero_add] at hstop
      refine ⟨Text.dropEndWhile Text.isLineBlank before, dropped, behind, ?_, ?_, ?_⟩
      · rw [← List.append_assoc, ← hdropped]
        exact hdoc
      · simp only
        omega
      · simp only
        omega

theorem rootElement_ne_misplaced (doc : List Char) (span : Span) :
    rootElement doc ≠ .error (.misplaced span) :=
  findFirst_ne_misplaced (Span.fits_whole doc) "dashboard" span

theorem sound_setDashboardPlan (doc : List Char) (c : DashboardChange) :
    Sound doc (setDashboardPlan doc c) := by
  unfold setDashboardPlan
  refine sound_bind (rootElement_ne_misplaced doc) fun root hroot => ?_
  cases root with
  | none => exact sound_ok (placed_nil doc)
  | some e =>
    obtain ⟨limit, he⟩ := stands_of_findFirst hroot
    exact sound_ok (placed_singleton he.fits_open)

/-! ## Removals -/

/-- The splice that cuts out an element with its lines. -/
def cutting (doc : List Char) (e : Element) : Splice :=
  ⟨(e.span.wholeLines doc).toOption.getD e.span, []⟩

theorem wholeLines_eq_cutting {doc : List Char} {e : Element} (h : e.span.Fits doc) :
    e.span.wholeLines doc = .ok (cutting doc e).span := by
  obtain ⟨before, indent, covered, ending, behind, -, -, hgrown, -⟩ := Span.wholeLines_eq_ok h
  unfold cutting
  rw [hgrown]
  rfl

theorem removalPlan_eq_ok {doc : List Char} {found : List Element}
    (h : ∀ e ∈ found, e.span.Fits doc) :
    removalPlan doc (.ok found) = .ok (found.map (cutting doc)) := by
  unfold removalPlan
  simp only [Except.bind]
  induction found with
  | nil => rfl
  | cons e found ih =>
    rw [exceptMapM_cons, ih fun e' he' => h e' (List.mem_cons_of_mem e he'),
      wholeLines_eq_cutting (h e List.mem_cons_self)]
    rfl

theorem cutting_fits {doc : List Char} {e : Element} (h : e.span.Fits doc) :
    (cutting doc e).span.Fits doc ∧ (cutting doc e).span.start ≤ e.start ∧
      e.stop ≤ (cutting doc e).span.stop := by
  obtain ⟨before, indent, covered, ending, behind, hdoc, hspan, hgrown, -⟩ := Span.wholeLines_eq_ok h
  have hstart := congrArg Span.start hspan
  have hstop := congrArg Span.stop hspan
  simp only [Element.span, Text.size_append] at hstart hstop
  have heq := hgrown.symm.trans (wholeLines_eq_cutting h)
  rw [← Except.ok.inj heq]
  refine ⟨⟨before, indent ++ (covered ++ ending), behind, ?_, rfl, rfl⟩, ?_, ?_⟩
  · rw [hdoc]
    simp
  · simp only
    omega
  · simp only [Text.size_append]
    omega

/-- Elements of which each one precedes the next ones are cut out at once, with their lines. -/
theorem placed_cutting {doc : List Char} {names : List String} {found : List Element}
    (hsettled : Settled doc names ⟨0, size doc⟩ found)
    (horder : found.Pairwise fun a b => a.Precedes doc b) : Placed doc (found.map (cutting doc)) := by
  have hfits := hsettled.fits_span
  have hapart : found.Pairwise fun a b => (cutting doc a).span.stop ≤ (cutting doc b).span.start := by
    refine horder.imp_of_mem fun {a b} ha hb hab => ?_
    obtain ⟨limit, hstands⟩ := hsettled.stands b hb
    exact hab.wholeLines hstands.at_start (wholeLines_eq_cutting (hfits a ha))
      (wholeLines_eq_cutting (hfits b hb))
  refine ⟨?_, List.pairwise_map.mpr hapart, List.pairwise_map.mpr ?_⟩
  · intro s hs
    obtain ⟨e, he, rfl⟩ := List.mem_map.mp hs
    exact (cutting_fits (hfits e he)).1
  · refine hapart.imp_of_mem fun {a b} ha _ hab => ?_
    obtain ⟨-, hstart, hstop⟩ := cutting_fits (hfits a ha)
    obtain ⟨limit, hstands⟩ := hsettled.stands a ha
    have := hstands.start_lt_stop
    omega

/-! ## The main results -/

/-- **An edit is exact.** Its splices fit the document and lie apart, and it replaces their spans at once.
A fault of the document, or no element to be edited, leaves the document as it is. `chosen` are the elements
that the edit looks for. -/
structure ExactEdit (doc : List Char) (chosen : Except Fault (List Element))
    (plan : Except Fault (List Splice)) (edited : Edited (List Char)) : Prop where
  carried : ∀ splices, plan = .ok splices →
    (∀ s ∈ splices, s.span.Fits doc) ∧
      (splices.Pairwise fun a b => a.span.stop ≤ b.span.start) ∧
      ∃ out, Carries 0 splices doc out ∧ edited = .ok out
  faulty : ∀ fault, plan = .error fault → edited = .ok doc
  unread : ∀ fault, chosen = .error fault → edited = .ok doc
  unmatched : chosen = .ok [] → edited = .ok doc

/-- **A removal is exact.** The elements fit the document and lie apart, and so do the spans to which they
grow with their lines. These are cut out at once, and then superfluous line breaks are. `looked` are the
elements with the id, `chosen` those that are removed. -/
structure ExactRemoval (doc : List Char) (looked chosen : Except Fault (List Element))
    (removed : Edited (List Char × Nat)) : Prop where
  carried : ∀ found, chosen = .ok found →
    (∀ e ∈ found, e.span.Fits doc) ∧ (found.Pairwise fun a b => a.stop ≤ b.start) ∧
      ∃ splices out, removalPlan doc chosen = .ok splices ∧
        (found.map fun e => e.span.wholeLines doc) = (splices.map fun s => .ok s.span) ∧
        (∀ s ∈ splices, s.text = []) ∧ (∀ s ∈ splices, s.span.Fits doc) ∧
        (splices.Pairwise fun a b => a.span.stop ≤ b.span.start) ∧
        Carries 0 splices doc out ∧ carryOut doc (removalPlan doc chosen) = .ok out ∧
        removed = .ok (if found = [] then (doc, 0) else (Text.collapseBreaks 0 out, found.length))
  faulty : ∀ fault, removalPlan doc chosen = .error fault → removed = .ok (doc, 0)
  unread : ∀ fault, looked = .error fault → removed = .ok (doc, 0)
  unmatched : looked = .ok [] → removed = .ok (doc, 0)

theorem exactEdit_of_sound {doc : List Char} {chosen : Except Fault (List Element)}
    {plan : Except Fault (List Splice)} (hsound : Sound doc plan)
    (hunread : ∀ fault, chosen = .error fault → plan = .error fault)
    (hunmatched : chosen = .ok [] → plan = .ok []) :
    ExactEdit doc chosen plan (carryOut doc plan) where
  carried splices hplan := by
    have hplaced := hsound.placed splices hplan
    obtain ⟨out, hout, hcarry⟩ := hplaced.carryOut
    exact ⟨hplaced.fits, hplaced.apart, out, hout, by rw [hplan, hcarry]⟩
  faulty fault hfault := carryOut_of_error hsound hfault
  unread fault hfault := carryOut_of_error hsound (hunread fault hfault)
  unmatched hnone := by rw [hunmatched hnone, carryOut_nil]

theorem exactRemoval_of_precedes {doc : List Char} {names : List String}
    {looked : Except Fault (List Element)} {pick : List Element → List Element}
    (hpick : ∀ found, (pick found).Sublist found)
    (hlooked : ∀ span, looked ≠ .error (.misplaced span))
    (hsettled : ∀ found, looked = .ok found → Settled doc names ⟨0, size doc⟩ found)
    (hnames : ∀ name ∈ names, name ∉ containerNames) :
    ExactRemoval doc looked (looked.map pick) (removeLines doc (removalPlan doc (looked.map pick))) := by
  have hfault : ∀ fault, looked = .error fault →
      removeLines doc (removalPlan doc (looked.map pick)) = .ok (doc, 0) := by
    rintro fault rfl
    cases fault with
    | misplaced span => exact absurd rfl (hlooked span)
    | unterminated name start => rfl
    | unclosed name start => rfl
  refine ⟨?_, ?_, hfault, ?_⟩
  · intro chosen hchosen
    obtain ⟨found, rfl, rfl⟩ := exceptMap_eq_ok.mp hchosen
    have hpart := (hsettled found rfl).sublist (hpick found)
    have horder := hpart.pairwise_precedes hnames
    have hfits := hpart.fits_span
    have hplaced := placed_cutting hpart horder
    obtain ⟨out, hout, hcarry⟩ := hplaced.carryOut
    have hplan : removalPlan doc ((Except.ok found).map pick) = .ok ((pick found).map (cutting doc)) :=
      removalPlan_eq_ok hfits
    refine ⟨hfits, horder.imp fun h => h.1, _, out, hplan, ?_, ?_, hplaced.fits, hplaced.apart, hout,
      by rw [hplan, hcarry], ?_⟩
    · rw [List.map_map]
      exact List.map_congr_left fun e he => wholeLines_eq_cutting (hfits e he)
    · intro s hs
      obtain ⟨e, -, rfl⟩ := List.mem_map.mp hs
      rfl
    · rw [hplan]
      unfold removeLines
      rw [hcarry]
      cases hnil : pick found with
      | nil =>
        rw [hnil] at hcarry
        obtain rfl := Except.ok.inj ((carryOut_nil doc).symm.trans hcarry)
        rfl
      | cons e more =>
        rw [if_neg (List.cons_ne_nil e more), ← List.length_map (f := cutting doc)]
        rfl
  · intro fault hplan
    cases looked with
    | error fault' => exact hfault fault' rfl
    | ok found =>
      have hpart := (hsettled found rfl).sublist (hpick found)
      exact absurd (hplan.symm.trans (removalPlan_eq_ok hpart.fits_span)) (by simp)
  · rintro rfl
    have hnil : pick [] = [] := List.eq_nil_of_sublist_nil (hpick [])
    simp only [Except.map, hnil]
    change removeLines doc (.ok []) = .ok (doc, 0)
    unfold removeLines
    rw [carryOut_nil]
    rfl

theorem not_container_of_mem_widgetNames : ∀ name ∈ widgetNames, name ∉ containerNames := by
  decide

theorem elementById_of_nil {doc : List Char} {names : List String} {id : String}
    (h : elementsById doc names id = .ok []) : elementById doc names id = .ok none := by
  unfold elementById
  rw [h]
  rfl

theorem elementById_of_error {doc : List Char} {names : List String} {id : String} {fault : Fault}
    (h : elementsById doc names id = .error fault) : elementById doc names id = .error fault := by
  unfold elementById
  rw [h]
  rfl

/-- An edit of the first element with an id. -/
theorem exactEdit_first {doc : List Char} {names : List String} {id : String}
    {plan : Except Fault (List Splice)} (hsound : Sound doc plan)
    (hunread : ∀ fault, elementById doc names id = .error fault → plan = .error fault)
    (hunmatched : elementById doc names id = .ok none → plan = .ok []) :
    ExactEdit doc (elementsById doc names id) plan (carryOut doc plan) :=
  exactEdit_of_sound hsound (fun fault hfault => hunread fault (elementById_of_error hfault))
    fun hnone => hunmatched (elementById_of_nil hnone)

theorem exactEdit_setAttribute (doc : List Char) (id name value : String) :
    ExactEdit doc (elementsById doc nodeNames id) (setAttributePlan doc id name value)
      (setAttribute doc id name value) := by
  refine exactEdit_of_sound (sound_setAttributePlan doc id name value) ?_ ?_
  · intro fault hfault
    unfold setAttributePlan
    rw [hfault]
    rfl
  · intro hnone
    unfold setAttributePlan
    rw [hnone]
    rfl

theorem exactEdit_blockPlan {doc : List Char} {id name : String} {place : Place}
    {write : Option Element → Except Fault (List Char)}
    (hsound : Sound doc (blockPlan doc id name place write)) :
    ExactEdit doc (elementsById doc widgetNames id) (blockPlan doc id name place write)
      (carryOut doc (blockPlan doc id name place write)) := by
  refine exactEdit_first hsound ?_ ?_
  · intro fault hfault
    unfold blockPlan
    rw [hfault]
    rfl
  · intro hnone
    unfold blockPlan
    rw [hnone]
    rfl

theorem exactEdit_setGroupStyle (doc : List Char) (id : String) (style : Json.Object) :
    ExactEdit doc (elementsById doc ["group"] id) (setGroupStylePlan doc id style)
      (setGroupStyle doc id style) := by
  refine exactEdit_first (sound_setGroupStylePlan doc id style) ?_ ?_
  · intro fault hfault
    unfold setGroupStylePlan
    rw [hfault]
    rfl
  · intro hnone
    unfold setGroupStylePlan
    rw [hnone]
    rfl

theorem exactEdit_linesPlan (doc : List Char) (id : String) (lines : List Char) :
    ExactEdit doc (elementsById doc ["group"] id) (linesPlan doc id lines)
      (carryOut doc (linesPlan doc id lines)) := by
  refine exactEdit_first (sound_linesPlan doc id lines) ?_ ?_
  · intro fault hfault
    unfold linesPlan
    rw [hfault]
    rfl
  · intro hnone
    unfold linesPlan
    rw [hnone]
    rfl

theorem exactEdit_setDashboard (doc : List Char) (c : DashboardChange) :
    ExactEdit doc ((rootElement doc).map Option.toList) (setDashboardPlan doc c)
      (setDashboard doc c) := by
  refine exactEdit_of_sound (sound_setDashboardPlan doc c) ?_ ?_
  · intro fault hfault
    unfold setDashboardPlan
    rw [exceptMap_eq_error.mp hfault]
    rfl
  · intro hnone
    obtain ⟨root, hroot, hlist⟩ := exceptMap_eq_ok.mp hnone
    unfold setDashboardPlan
    rw [hroot]
    cases root with
    | none => rfl
    | some e => exact absurd hlist (by simp)

/-- **Every edit but the removal of groups is exact**, for any document and any argument. -/
theorem edits_exact (doc : List Char) (id : String) :
    (∀ name value, ExactEdit doc (elementsById doc nodeNames id) (setAttributePlan doc id name value)
      (setAttribute doc id name value)) ∧
    (∀ fields, ExactEdit doc (elementsById doc widgetNames id) (setDataSourcePlan doc id fields)
      (setDataSource doc id fields)) ∧
    (∀ update, ExactEdit doc (elementsById doc widgetNames id) (setConfigPlan doc id update)
      (setConfig doc id update)) ∧
    (∀ tokens, ExactEdit doc (elementsById doc widgetNames id) (setTokensPlan doc id tokens)
      (setTokens doc id tokens)) ∧
    (∀ style, ExactEdit doc (elementsById doc ["group"] id) (setGroupStylePlan doc id style)
      (setGroupStyle doc id style)) ∧
    (∀ k, ExactEdit doc (elementsById doc ["group"] id) (insertKpiPlan doc id k)
      (insertKpi doc id k)) ∧
    (∀ c, ExactEdit doc (elementsById doc ["group"] id) (insertChartPlan doc id c)
      (insertChart doc id c)) ∧
    (∀ c, ExactEdit doc ((rootElement doc).map Option.toList) (setDashboardPlan doc c)
      (setDashboard doc c)) ∧
    ExactRemoval doc (elementsById doc widgetNames id) (doomedWidgets doc id)
      (removeWidget doc id) ∧
    ExactRemoval doc (elementsById doc widgetNames id) (doomedDuplicates doc id)
      (dedupeWidget doc id) := by
  have hwidgets : ∀ pick : List Element → List Element, (∀ found, (pick found).Sublist found) →
      ExactRemoval doc (elementsById doc widgetNames id) ((elementsById doc widgetNames id).map pick)
        (removeLines doc (removalPlan doc ((elementsById doc widgetNames id).map pick))) :=
    fun pick hpick => exactRemoval_of_precedes hpick (elementsById_ne_misplaced doc widgetNames id)
      (fun found => settled_of_elementsById) not_container_of_mem_widgetNames
  refine ⟨exactEdit_setAttribute doc id, fun fields => ?_, fun update => ?_, fun tokens => ?_,
    exactEdit_setGroupStyle doc id, fun k => ?_, fun c => ?_, exactEdit_setDashboard doc, ?_, ?_⟩
  · exact exactEdit_blockPlan (sound_setDataSourcePlan doc id fields)
  · exact exactEdit_blockPlan (sound_setConfigPlan doc id update)
  · exact exactEdit_blockPlan (sound_setTokensPlan doc id tokens)
  · exact exactEdit_linesPlan doc id k.lines
  · exact exactEdit_linesPlan doc id c.lines
  · exact hwidgets _ fun found => List.filter_sublist
  · exact hwidgets _ fun found => List.filter_sublist.trans (List.drop_sublist 1 found)

end Edit

end DashboardMarkup
