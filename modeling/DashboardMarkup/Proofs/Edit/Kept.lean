import DashboardMarkup.Proofs.Edit.Retagged
import DashboardMarkup.Proofs.Markup.Standing

/-!
# What a walk through the new tree reaches

An edit of attributes leaves the walk through a document on its way exactly if every close tag of the new
document is found where it is written. Values can get in the way of that: inside an element, the search for
its close tag does not know what stands in quotes.

* `becomes_retagged`: in the new tree stand the elements of the old one, each as it was or with its new
  attributes, whatever the values are.
* `recovered_of_plain`: if the walk through the text of the new tree reaches such elements at all, then every
  close tag has been found.
* `walk_retagged_iff`: the two together.
-/

namespace DashboardMarkup.Markup

open Text

variable {names : List String} {chosen : String → Attributes → Bool} {update : Attributes → Attributes}
  {doc doc' before before' : List Char} {splices : List Splice}

/-! ## The elements of the new tree -/

/-- **One by one, the elements of the tree keep their names and contents**, and their attributes unless they
are chosen. -/
theorem becomes_retagged {f : Forest}
    (h : f.Sited names chosen update doc doc' splices before before') :
    List.Forall₂ (fun e e' => e.Becomes doc doc' splices (e.updated chosen update) e')
      (f.reached names (size before)) ((f.retagged names chosen update).reached names (size before')) := by
  induction f generalizing before before' with
  | nil => exact List.Forall₂.nil
  | text t more ih =>
    rw [Forest.reached, Forest.retagged, Forest.reached, ← size_append, ← size_append]
    exact ih (sited_text h)
  | comment t more ih =>
    rw [Forest.reached, Forest.retagged, Forest.reached, size_comment, size_comment]
    exact ih (sited_comment h)
  | single tag gap more ih =>
    rw [Forest.reached, Forest.retagged, Forest.reached, nameIn?_retagged, size_single, size_single]
    refine List.rel_append ?_ (ih (sited_single h))
    cases hin : tag.nameIn? names with
    | none => exact List.Forall₂.nil
    | some name =>
      refine List.Forall₂.cons ⟨rfl, meant_retagged hin _, rfl, rfl, ?_⟩ List.Forall₂.nil
      intro inner hinner
      exact absurd hinner (by simp [Element.inner?])
  | paired tag children close more ihc ih =>
    rw [Forest.reached, Forest.retagged, Forest.reached, nameIn?_retagged, admits_retagged, size_paired,
      size_paired, size_open, size_open]
    refine List.rel_append ?_ (List.rel_append ?_ (ih (sited_rest h)))
    · cases hin : tag.nameIn? names with
      | none => exact List.Forall₂.nil
      | some name =>
        exact List.Forall₂.cons (becomes_of_part (part_content h) rfl (meant_retagged hin _) rfl rfl)
          List.Forall₂.nil
    · by_cases hadmits : tag.admits names = true
      · simp only [if_pos hadmits]
        exact ihc (sited_children h hadmits)
      · rw [if_neg hadmits, if_neg hadmits]
        exact List.Forall₂.nil

/-! ## The close tags of the new tree -/

/-- The length of its content tells where an element ends. -/
theorem stop_of_innerText {e : Element} {inner : Span} {text : List Char} (hinner : e.inner? = some inner)
    (h : e.innerText doc = .ok text) :
    ∃ front behind, doc = front ++ (text ++ behind) ∧ size front = inner.start ∧
      size front + size text = inner.stop := by
  unfold Element.innerText at h
  rw [hinner] at h
  exact Span.cut?_eq_some.mp (Span.text_eq_ok.mp h)

/-- A close tag that leaves the right content is the right one. -/
theorem close_of_innerText {limit : Nat} {name : String} {content tail close behind : List Char}
    {e : Element} (hlimit : size (content ++ tail) ≤ limit)
    (hclose : findClose limit name 0 (content ++ tail) = .ok (some (close, behind)))
    (hinner : e.inner? = some ⟨limit - size (content ++ tail), limit - size close⟩)
    (h : e.innerText doc = .ok content) : close = tail := by
  obtain ⟨front, hsplit⟩ := (suffix_findClose hclose).2
  obtain ⟨before, rest, -, hstart, hstop⟩ := stop_of_innerText hinner h
  have hsize := congrArg size hsplit
  simp only [size_append] at hstart hstop hlimit hsize
  refine (append_inj_of_size hsplit ?_).2
  omega

theorem size_content (before : List Char) (tag : WrittenTag) (children : Forest) (close : WrittenClose)
    (rest : Forest) (after : List Char) :
    size (before ++ (tag.text ++ ['>'])) + size (children.chars ++ (close.text ++ (rest.chars ++ after))) =
      size before + size ((Forest.paired tag children close rest).chars ++ after) := by
  rw [chars_paired]
  simp only [size_append, Nat.add_assoc]

theorem size_behind (before : List Char) (tag : WrittenTag) (children : Forest) (close : WrittenClose)
    (rest : Forest) (after : List Char) :
    size (before ++ (tag.text ++ ['>'] ++ (children.chars ++ close.text))) + size (rest.chars ++ after) =
      size before + size ((Forest.paired tag children close rest).chars ++ after) := by
  rw [chars_paired]
  simp only [size_append, Nat.add_assoc]

/-- Wherever a tree stands, a walk through the text of the new one that reaches what becomes of its elements
has found the close tags in it, and goes on behind it. Others may follow on both sides. -/
def Forest.Recovered (names : List String) (chosen : String → Attributes → Bool)
    (update : Attributes → Attributes) (doc doc' : List Char) (splices : List Splice) (f : Forest) : Prop :=
  ∀ {before before' after : List Char} {limit : Nat} {roots all more more' : List Element},
    f.Sited names chosen update doc doc' splices before before' →
    size before' + size ((f.retagged names chosen update).chars ++ after) = limit →
    scan limit names ((f.retagged names chosen update).chars ++ after) = .ok roots →
    Reached doc' names roots all →
    List.Forall₂ (fun e e' => e.Becomes doc doc' splices (e.updated chosen update) e')
      (f.reached names (size before) ++ more) (all ++ more') →
    (f.retagged names chosen update).Closes names after ∧
      ∃ roots all, scan limit names after = .ok roots ∧ Reached doc' names roots all ∧
        List.Forall₂ (fun e e' => e.Becomes doc doc' splices (e.updated chosen update) e')
          more (all ++ more')

theorem recovered_text {t : List Char} (hlt : '<' ∉ t) {rest : Forest}
    (ih : rest.Recovered names chosen update doc doc' splices) :
    (Forest.text t rest).Recovered names chosen update doc doc' splices := by
  intro before before' after limit roots all more more' h hlimit hscan hreached hall
  rw [Forest.retagged, Forest.chars, List.append_assoc] at hlimit hscan
  rw [scan_append hlt] at hscan
  refine ih (sited_text h) ?_ hscan hreached ?_
  · rw [← hlimit]
    simp only [size_append, Nat.add_assoc]
  · rw [size_append]
    exact hall

theorem recovered_comment {t : List Char} (hmark : ¬"-->".toList <:+: t) {rest : Forest}
    (ih : rest.Recovered names chosen update doc doc' splices) :
    (Forest.comment t rest).Recovered names chosen update doc doc' splices := by
  intro before before' after limit roots all more more' h hlimit hscan hreached hall
  have hcomment := comment?_comment hmark ((rest.retagged names chosen update).chars ++ after)
  have hsplit : ((Forest.comment t rest).retagged names chosen update).chars ++ after =
      "<!--".toList ++ (t ++ ("-->".toList ++ ((rest.retagged names chosen update).chars ++ after))) := by
    simp [Forest.chars, Forest.retagged]
  rw [hsplit] at hlimit hscan
  rw [scan_comment hcomment] at hscan
  refine ih (sited_comment h) ?_ hscan hreached ?_
  · rw [← hlimit]
    simp only [size_append, Nat.add_assoc]
  · rw [← size_comment]
    exact hall

section Tags

variable (hnames : ∀ name ∈ names, TagName name)
  (hupdate : ∀ attrs : Attributes, (∀ a ∈ attrs, AttributeName a.name) →
    ∀ a ∈ update attrs, AttributeName a.name)

include hnames hupdate

theorem recovered_single {tag : WrittenTag} (htag : tag.Readable) (hplain : tag.Plain) {gap : List Char}
    (hgap : ∀ c ∈ gap, isTagBlank c = true) {rest : Forest}
    (ih : rest.Recovered names chosen update doc doc' splices) :
    (Forest.single tag gap rest).Recovered names chosen update doc doc' splices := by
  intro before before' after limit roots all more more' h hlimit hscan hreached hall
  have hsearch : ∀ name ∈ names, Searchable name := fun name hname => (hnames name hname).searchable
  have htag' : (tag.retagged names chosen update [' ']).Readable :=
    readable_retagged hnames hupdate htag (by decide)
  have hin' : (tag.retagged names chosen update [' ']).nameIn? names = tag.nameIn? names :=
    nameIn?_retagged tag [' ']
  have hgap' : ∀ c ∈ (if (tag.chosen? names chosen).isSome then [] else gap), isTagBlank c = true := by
    split
    · simp
    · exact hgap
  rw [Forest.retagged] at hlimit hscan
  rw [Forest.reached, size_single] at hall
  have hlimit' : size (before' ++ ((tag.retagged names chosen update [' ']).text ++
      ('/' :: (if (tag.chosen? names chosen).isSome then [] else gap) ++ ['>']))) +
        size ((rest.retagged names chosen update).chars ++ after) = limit := by
    rw [← hlimit, chars_single]
    simp only [size_append, Nat.add_assoc]
  cases hin : tag.nameIn? names with
  | none =>
    rw [hin] at hall hin'
    have hplain' : (tag.retagged names chosen update [' ']).Plain := by
      rw [retagged_of_nameIn?_none hin]
      exact hplain
    rw [scan_single_other hsearch htag' hplain' hin' hgap'] at hscan
    exact ih (sited_single h) hlimit' hscan hreached hall
  | some name =>
    rw [hin] at hall hin'
    rw [scan_single_named hsearch htag' hin' hgap'] at hscan
    obtain ⟨roots, hroots, rfl⟩ := exceptMap_eq_ok.mp hscan
    obtain ⟨inside, tail, rfl, htail, hnone⟩ := hreached.cons_cases
    obtain rfl : inside = [] := by
      unfold Element.entered? Element.inner? at hnone
      simpa using hnone
    exact ih (sited_single h) hlimit' hroots htail (List.forall₂_cons.mp hall).2

omit hupdate in
theorem recovered_other {tag : WrittenTag} (htag : tag.Readable) (hplain : tag.Plain)
    (hin : tag.nameIn? names = none) {close : WrittenClose} (hclose : close.Readable)
    {children rest : Forest} (ihc : children.Recovered names chosen update doc doc' splices)
    (ih : rest.Recovered names chosen update doc doc' splices) :
    (Forest.paired tag children close rest).Recovered names chosen update doc doc' splices := by
  intro before before' after limit roots all more more' h hlimit hscan hreached hall
  have hsearch : ∀ name ∈ names, Searchable name := fun name hname => (hnames name hname).searchable
  have hadmits := admits_of_none hin
  have hsame : tag.retagged names chosen update [] = tag := retagged_of_nameIn?_none hin []
  have hchildren := sited_children h hadmits
  have hrest := sited_rest h
  rw [Forest.retagged, hsame, if_pos hadmits] at hlimit hscan
  rw [hsame] at hchildren
  rw [hsame, if_pos hadmits] at hrest
  rw [Forest.reached, size_paired, size_open, hin, if_pos hadmits] at hall
  simp only [Option.toList_none, List.map_nil, List.nil_append] at hall
  rw [List.append_assoc] at hall
  rw [scan_paired_other hsearch htag hplain hin] at hscan
  obtain ⟨hcontent, roots, all, hscan, hreached, hall⟩ :=
    ihc hchildren ((size_content _ _ _ _ _ _).trans hlimit) hscan hreached hall
  rw [scan_close hclose hsearch] at hscan
  obtain ⟨hcloses, hmore⟩ := ih hrest ((size_behind _ _ _ _ _ _).trans hlimit) hscan hreached hall
  refine ⟨⟨?_, hcloses⟩, hmore⟩
  rw [hsame, hin, if_pos hadmits]
  exact hcontent

theorem recovered_named {tag : WrittenTag} (htag : tag.Readable) {name : String}
    (hin : tag.nameIn? names = some name) {close : WrittenClose} (hclose : close.Readable)
    {children rest : Forest} (hnested : children.Nested) (hplain : children.AllTags WrittenTag.Plain)
    (ihc : children.Recovered names chosen update doc doc' splices)
    (ih : rest.Recovered names chosen update doc doc' splices) :
    (Forest.paired tag children close rest).Recovered names chosen update doc doc' splices := by
  intro before before' after limit roots all more more' h hlimit hscan hreached hall
  have hsearch : ∀ name ∈ names, Searchable name := fun name hname => (hnames name hname).searchable
  have htag' : (tag.retagged names chosen update []).Readable :=
    readable_retagged hnames hupdate htag (by simp)
  have hin' : (tag.retagged names chosen update []).nameIn? names = some name :=
    (nameIn?_retagged tag []).trans hin
  rw [Forest.retagged] at hlimit hscan ⊢
  rw [Forest.reached, size_paired, size_open, hin] at hall
  simp only [Option.toList_some, List.map_cons, List.map_nil, List.cons_append, List.nil_append] at hall
  have hopen := (size_content _ _ _ _ _ _).trans hlimit
  -- the search finds the element, and behind it the walk goes on
  obtain ⟨hcomment, text, hopening, hfinish⟩ := opening_paired hsearch htag' hin' _ close _ after
  obtain ⟨e', roots, rfl, hname, hbody⟩ := scan_open_cases hcomment hopening hfinish rfl hscan
  obtain ⟨inside, tail, rfl, htail, hentered⟩ := hreached.cons_cases
  rw [List.cons_append] at hall
  obtain ⟨hbecomes, hall⟩ := List.forall₂_cons.mp hall
  rcases hbody with hbody | ⟨close', behind, hfound, hbody, hscan⟩
  · have hclosed : e'.closed = true := hbecomes.closed.trans rfl
    unfold Element.closed at hclosed
    rw [hbody] at hclosed
    exact absurd hclosed (by decide)
  have hinner := inner?_of_paired hbody
  have htext := innerText_of_becomes hbecomes (part_content h) rfl
  obtain rfl := close_of_innerText (by omega) hfound hinner htext
  obtain rfl := (closing_of_findClose hfound).2.trans (behindTag_close hclose _)
  have hcontent : (if tag.admits names then children.retagged names chosen update else children).Closes
        names [] ∧
      List.Forall₂ (fun e e' => e.Becomes doc doc' splices (e.updated chosen update) e')
        (rest.reached names (size (before ++ (tag.text ++ ['>'] ++ (children.chars ++ close.text)))) ++ more)
        (tail ++ more') := by
    rw [List.append_assoc _ _ more, List.append_assoc inside] at hall
    have hentered' : e'.entered? = if tag.admits names = true then e'.inner? else none := by
      unfold Element.entered?
      rw [hname, admits_of_some hin]
    by_cases hadmits : tag.admits names = true
    · -- a container: the walk goes on in its content, which ends where it should
      rw [if_pos hadmits, hinner] at hentered'
      rw [hentered'] at hentered
      obtain ⟨found, hfind, hinside⟩ := hentered
      obtain ⟨front, behind, hdoc', hstart, hstop⟩ := stop_of_innerText hinner htext
      simp only at hstart hstop
      rw [← hstart, ← hstop, hdoc', find_append] at hfind
      simp only [if_pos hadmits] at hall hfind hstart hopen ⊢
      rw [← List.append_nil (Forest.chars _)] at hfind
      obtain ⟨hcloses, roots, all, hnil, hnone, hall⟩ :=
        ihc (sited_children h hadmits) (by rw [List.append_nil]; omega) hfind hinside hall
      rw [scan_nil] at hnil
      obtain rfl := Except.ok.inj hnil
      cases hnone
      exact ⟨hcloses, hall⟩
    · rw [if_neg hadmits] at hentered'
      rw [hentered'] at hentered
      obtain rfl := hentered
      simp only [if_neg hadmits] at hall ⊢
      exact ⟨closes_of_plain hsearch hnested hplain [], hall⟩
  obtain ⟨hcloses, hmore⟩ :=
    ih (sited_rest h) ((size_behind _ _ _ _ _ _).trans hlimit) hscan htail hcontent.2
  refine ⟨⟨?_, hcloses⟩, hmore⟩
  rw [hin']
  exact ⟨findClose_limit hfound, hcontent.1⟩

/-- In a well-formed tree all parts do so. -/
theorem recovered_of_plain {f : Forest} (hf : f.Nested) (hplain : f.AllTags WrittenTag.Plain) :
    f.Recovered names chosen update doc doc' splices := by
  induction f with
  | nil =>
    intro before before' after limit roots all more more' h hlimit hscan hreached hall
    exact ⟨trivial, roots, all, hscan, hreached, hall⟩
  | text t rest ih => exact recovered_text hf.1 (ih hf.2 hplain)
  | comment t rest ih => exact recovered_comment hf.1 (ih hf.2 hplain)
  | single tag gap rest ih =>
    obtain ⟨htag, hgap, hrest⟩ := hf
    exact recovered_single hnames hupdate htag hplain.1 hgap (ih hrest hplain.2)
  | paired tag children close rest ihc ih =>
    obtain ⟨htag, hclose, -, hchildren, hrest⟩ := hf
    obtain ⟨hone, hinside, hplain⟩ := hplain
    cases hin : tag.nameIn? names with
    | none =>
      exact recovered_other hnames htag hone hin hclose (ihc hchildren hinside) (ih hrest hplain)
    | some name =>
      exact recovered_named hnames hupdate htag hin hclose hchildren hinside (ihc hchildren hinside)
        (ih hrest hplain)

/-- **The walk through the new text reaches what becomes of the elements exactly if it finds every close
tag** where it is written. -/
theorem walk_retagged_iff {f : Forest} (hf : f.WellFormed) :
    (∃ all, walk (f.retagged names chosen update).chars names
          ⟨0, size (f.retagged names chosen update).chars⟩ = .ok all ∧
        List.Forall₂ (fun e e' => e.Becomes f.chars (f.retagged names chosen update).chars
          (retagPlan chosen update (f.reached names 0)) (e.updated chosen update) e')
          (f.reached names 0) all) ↔
      (f.retagged names chosen update).Closes names [] := by
  have hsited : f.Sited names chosen update f.chars (f.retagged names chosen update).chars
      (retagPlan chosen update (f.reached names 0)) [] [] :=
    ⟨⟨[], by simp⟩, ⟨[], by simp⟩, ⟨[], [], by simp, by simp, by simp⟩, starts_of_plan,
      carries_retagged f 0⟩
  constructor
  · rintro ⟨all, hwalk, hall⟩
    obtain ⟨roots, hfind, hreached⟩ := walk_eq_ok.mp hwalk
    have hscan := find_append [] (f.retagged names chosen update).chars [] names
    rw [List.nil_append, List.append_nil, size_nil, Nat.zero_add, hfind] at hscan
    refine (@recovered_of_plain names chosen update _ _ _ hnames hupdate f hf.nested hf.plain [] [] []
      (size (f.retagged names chosen update).chars) roots all [] [] hsited ?_ ?_ hreached ?_).1
    · rw [List.append_nil, size_nil, Nat.zero_add]
    · rw [List.append_nil]
      exact hscan.symm
    · rw [List.append_nil, List.append_nil]
      exact hall
  · intro hcloses
    refine ⟨_, ?_, becomes_retagged hsited⟩
    exact walk_forest (fun name hname => (hnames name hname).searchable)
      (nested_retagged hnames hupdate hf.nested) (plain_retagged hf.plain) hcloses

end Tags

end DashboardMarkup.Markup
