import DashboardMarkup.Proofs.Edit.Part
import DashboardMarkup.Proofs.Edit.Tree
import DashboardMarkup.Proofs.Markup.Rendered
import Mathlib.Data.List.Forall2

/-!
# Trees with other tags

An edit of attributes writes some open tags of a document anew. On a document that is written as a tree
this is a change to the tree: `Forest.retagged` gives it the new tags and leaves the rest.

* `carries_retagged`: the splices of the edit turn the text of the one tree into that of the other.
* `becomes_retagged`: one by one, the elements of the one tree keep their names and contents in the other,
  and their attributes unless they are chosen, whatever the values are.
-/

namespace DashboardMarkup.Markup

open Text

/-- A name that is written as that of a tag. -/
def TagName (name : String) : Prop :=
  name.toList ≠ [] ∧ ∀ c ∈ name.toList, isTagNameChar c = true

instance (name : String) : Decidable (TagName name) :=
  inferInstanceAs (Decidable (_ ∧ _))

theorem TagName.searchable {name : String} (h : TagName name) : Searchable name :=
  ⟨h.1, fun c hc => isBoundary_of_isTagNameChar (h.2 c hc)⟩

section Definitions

variable (names : List String) (chosen : String → Attributes → Bool) (update : Attributes → Attributes)

/-- The name of a tag, if it is one of those looked for and its element is chosen. -/
def WrittenTag.chosen? (t : WrittenTag) : Option String :=
  (t.nameIn? names).filter fun name => chosen name t.meant

/-- A tag, written anew if it is chosen, with some blanks at its end. -/
def WrittenTag.retagged (gap : List Char) (t : WrittenTag) : WrittenTag :=
  match t.chosen? names chosen with
  | some name => WrittenTag.rendered name (update t.meant) gap
  | none => t

/-- A tree with the tags of all chosen elements that the walk reaches written anew. -/
def Forest.retagged : Forest → Forest
  | nil => nil
  | text t rest => text t rest.retagged
  | comment t rest => comment t rest.retagged
  | single tag gap rest =>
    single (tag.retagged names chosen update [' '])
      (if (tag.chosen? names chosen).isSome then [] else gap) rest.retagged
  | paired tag children close rest =>
    paired (tag.retagged names chosen update [])
      (if tag.admits names then children.retagged else children) close rest.retagged

/-- The attributes of an element after the edit. -/
def Element.updated (e : Element) : Attributes :=
  if chosen e.name e.attrs then update e.attrs else e.attrs

/-- The splices that write the tags of chosen elements anew. -/
def retagPlan (found : List Element) : List Splice :=
  (found.filter fun e => chosen e.name e.attrs).map fun e =>
    ⟨⟨e.start, e.openEnd⟩,
      renderOpen e.name { attrs := update e.attrs, selfClosing := e.selfClosing }⟩

end Definitions

variable {names : List String} {chosen : String → Attributes → Bool} {update : Attributes → Attributes}

theorem retagPlan_nil : retagPlan chosen update [] = [] :=
  rfl

theorem retagPlan_append (found found' : List Element) :
    retagPlan chosen update (found ++ found') =
      retagPlan chosen update found ++ retagPlan chosen update found' := by
  unfold retagPlan
  rw [List.filter_append, List.map_append]

theorem retagPlan_singleton (e : Element) :
    retagPlan chosen update [e] =
      if chosen e.name e.attrs = true
        then [⟨⟨e.start, e.openEnd⟩,
          renderOpen e.name { attrs := update e.attrs, selfClosing := e.selfClosing }⟩]
        else [] := by
  unfold retagPlan
  rw [List.filter_singleton]
  by_cases hc : chosen e.name e.attrs = true
  · simp [hc]
  · simp [hc]

theorem mem_retagPlan {found : List Element} {s : Splice} (h : s ∈ retagPlan chosen update found) :
    ∃ e ∈ found, s.span.start = e.start := by
  obtain ⟨e, he, rfl⟩ := List.mem_map.mp h
  exact ⟨e, (List.mem_filter.mp he).1, rfl⟩

/-! ## One tag -/

theorem retagged_cases (t : WrittenTag) (gap : List Char) :
    (t.chosen? names chosen = none ∧ t.retagged names chosen update gap = t) ∨
      ∃ name, t.nameIn? names = some name ∧ chosen name t.meant = true ∧
        t.chosen? names chosen = some name ∧
        t.retagged names chosen update gap = WrittenTag.rendered name (update t.meant) gap := by
  unfold WrittenTag.retagged
  cases hc : t.chosen? names chosen with
  | none => exact Or.inl ⟨rfl, rfl⟩
  | some name =>
    obtain ⟨hin, hchosen⟩ := Option.filter_eq_some_iff.mp hc
    exact Or.inr ⟨name, hin, hchosen, rfl, rfl⟩

theorem chosen?_of_nameIn? {t : WrittenTag} {name : String} (h : t.nameIn? names = some name) :
    t.chosen? names chosen = if chosen name t.meant = true then some name else none := by
  unfold WrittenTag.chosen?
  rw [h, Option.filter_some]

/-- The name of a tag stays the same, but for the case of its letters. -/
theorem lower_name_retagged (t : WrittenTag) (gap : List Char) :
    lower (t.retagged names chosen update gap).name = lower t.name := by
  rcases @retagged_cases names chosen update t gap with ⟨-, heq⟩ | ⟨name, hin, -, -, heq⟩
  · rw [heq]
  · rw [heq]
    have := @List.find?_some _ (fun name : String => lower t.name == lower name.toList) _ _ hin
    exact (beq_iff_eq.mp this).symm

theorem nameIn?_retagged (t : WrittenTag) (gap : List Char) :
    (t.retagged names chosen update gap).nameIn? names = t.nameIn? names := by
  unfold WrittenTag.nameIn?
  rw [lower_name_retagged]

theorem admits_retagged (t : WrittenTag) (gap : List Char) :
    (t.retagged names chosen update gap).admits names = t.admits names := by
  unfold WrittenTag.admits
  rw [nameIn?_retagged]

theorem meant_retagged {t : WrittenTag} {name : String} (h : t.nameIn? names = some name)
    (gap : List Char) :
    (t.retagged names chosen update gap).meant =
      if chosen name t.meant = true then update t.meant else t.meant := by
  unfold WrittenTag.retagged
  rw [chosen?_of_nameIn? h]
  by_cases hc : chosen name t.meant = true
  · rw [if_pos hc, if_pos hc]
    exact meant_rendered _ _ _
  · rw [if_neg hc, if_neg hc]

/-- Nothing is written into tags of other names. -/
theorem retagged_of_nameIn?_none {t : WrittenTag} (h : t.nameIn? names = none) (gap : List Char) :
    t.retagged names chosen update gap = t := by
  unfold WrittenTag.retagged WrittenTag.chosen?
  rw [h]
  rfl

theorem readable_retagged (hnames : ∀ name ∈ names, TagName name)
    (hupdate : ∀ attrs : Attributes, (∀ a ∈ attrs, AttributeName a.name) →
      ∀ a ∈ update attrs, AttributeName a.name)
    {t : WrittenTag} (h : t.Readable) {gap : List Char} (hgap : ∀ c ∈ gap, isTagBlank c = true) :
    (t.retagged names chosen update gap).Readable := by
  rcases @retagged_cases names chosen update t gap with ⟨-, heq⟩ | ⟨name, hin, -, -, heq⟩
  · rw [heq]
    exact h
  · obtain ⟨hne, hchar⟩ := hnames name (List.mem_of_find?_eq_some hin)
    rw [heq]
    exact readable_rendered hne hchar (hupdate _ (attributeName_of_readable h)) hgap

/-! ## The new tree -/

/-- The new tree is nested as the old one, whatever its values are. -/
theorem nested_retagged (hnames : ∀ name ∈ names, TagName name)
    (hupdate : ∀ attrs : Attributes, (∀ a ∈ attrs, AttributeName a.name) →
      ∀ a ∈ update attrs, AttributeName a.name)
    {f : Forest} (hf : f.Nested) : (f.retagged names chosen update).Nested := by
  induction f with
  | nil => trivial
  | text t more ih => exact ⟨hf.1, ih hf.2⟩
  | comment t more ih => exact ⟨hf.1, ih hf.2⟩
  | single tag gap more ih =>
    obtain ⟨htag, hgap, hmore⟩ := hf
    refine ⟨readable_retagged hnames hupdate htag (by decide), ?_, ih hmore⟩
    split
    · simp
    · exact hgap
  | paired tag children close more ihc ih =>
    obtain ⟨htag, hclose, hsame, hchildren, hmore⟩ := hf
    refine ⟨readable_retagged hnames hupdate htag (by simp), hclose, ?_, ?_, ih hmore⟩
    · rw [hsame, lower_name_retagged]
    · split
      · exact ihc hchildren
      · exact hchildren

/-- Its tags of other names are those of the old one. -/
theorem plain_retagged {f : Forest} (hplain : f.AllTags WrittenTag.Plain) :
    (f.retagged names chosen update).AllTags fun t => t.nameIn? names = none → t.Plain := by
  have htag : ∀ (t : WrittenTag) (gap : List Char), t.Plain →
      (t.retagged names chosen update gap).nameIn? names = none →
        (t.retagged names chosen update gap).Plain := by
    intro t gap ht hnone
    rw [nameIn?_retagged] at hnone
    rw [retagged_of_nameIn?_none hnone]
    exact ht
  induction f with
  | nil => trivial
  | text t more ih => exact ih hplain
  | comment t more ih => exact ih hplain
  | single tag gap more ih => exact ⟨htag tag [' '] hplain.1, ih hplain.2⟩
  | paired tag children close more ihc ih =>
    obtain ⟨hone, hinside, hmore⟩ := hplain
    refine ⟨htag tag [] hone, ?_, ih hmore⟩
    split
    · exact ihc hinside
    · exact hinside.others names

/-! ## The splices -/

theorem text_retagged_paired {t : WrittenTag} {name : String} (h : t.nameIn? names = some name) :
    (t.retagged names chosen update []).text ++ ['>'] =
      if chosen name t.meant = true then renderOpen name { attrs := update t.meant, selfClosing := false }
      else t.text ++ ['>'] := by
  unfold WrittenTag.retagged
  rw [chosen?_of_nameIn? h]
  by_cases hc : chosen name t.meant = true
  · rw [if_pos hc, if_pos hc, renderOpen_paired]
  · rw [if_neg hc, if_neg hc]

theorem text_retagged_single {t : WrittenTag} {name : String} (h : t.nameIn? names = some name)
    (gap : List Char) :
    (t.retagged names chosen update [' ']).text ++
        ('/' :: (if (t.chosen? names chosen).isSome then [] else gap) ++ ['>']) =
      if chosen name t.meant = true then renderOpen name { attrs := update t.meant, selfClosing := true }
      else t.text ++ ('/' :: gap ++ ['>']) := by
  unfold WrittenTag.retagged
  rw [chosen?_of_nameIn? h]
  by_cases hc : chosen name t.meant = true
  · rw [if_pos hc, if_pos hc, renderOpen_single]
    rfl
  · rw [if_neg hc, if_neg hc]
    rfl

/-- The splice of one tag, with others behind it. -/
theorem carries_tag {e : Element} {splices : List Splice} {source target more more' : List Char}
    (hsize : e.openEnd = e.start + size source)
    (htarget : target = if chosen e.name e.attrs = true
      then renderOpen e.name { attrs := update e.attrs, selfClosing := e.selfClosing } else source)
    (h : Splice.Carries e.openEnd splices more more') :
    Splice.Carries e.start (retagPlan chosen update [e] ++ splices) (source ++ more) (target ++ more') := by
  rw [hsize] at h
  rw [retagPlan_singleton]
  by_cases hc : chosen e.name e.attrs = true
  · rw [if_pos hc] at htarget ⊢
    rw [htarget, hsize]
    exact h.swap_front source _
  · rw [if_neg hc] at htarget ⊢
    rw [htarget]
    exact h.keep source

/-- The splices in the content of an element that is written anew, if the walk goes on into it. -/
theorem carries_children {children : Forest} {offset : Nat} (tag : WrittenTag)
    (h : Splice.Carries offset (retagPlan chosen update (children.reached names offset)) children.chars
      (children.retagged names chosen update).chars) :
    Splice.Carries offset
      (retagPlan chosen update (if tag.admits names then children.reached names offset else []))
      children.chars (if tag.admits names then children.retagged names chosen update else children).chars := by
  split
  · exact h
  · exact Splice.Carries.done offset _

/-- **The splices turn the text of the tree into that of the new one**, wherever it stands. -/
theorem carries_retagged (f : Forest) (offset : Nat) :
    Splice.Carries offset (retagPlan chosen update (f.reached names offset)) f.chars
      (f.retagged names chosen update).chars := by
  have hgt : ('>').utf8Size = 1 := rfl
  have hslash : ('/').utf8Size = 1 := rfl
  induction f generalizing offset with
  | nil => exact Splice.Carries.done offset []
  | text t more ih => exact (ih (offset + size t)).keep t
  | comment t more ih =>
    have hrest := ih (offset + 4 + size t + 3)
    exact ((hrest.keep "-->".toList).keep t).keep "<!--".toList
  | single tag gap more ih =>
    have hsize : offset + size tag.text + 1 + size gap + 1 =
        offset + size (tag.text ++ ('/' :: gap ++ ['>'])) := by
      simp only [size_append, size_cons, size_nil, hslash, hgt]
      omega
    have hrest := ih (offset + size tag.text + 1 + size gap + 1)
    rw [Forest.reached, Forest.retagged, chars_single, chars_single, retagPlan_append]
    cases hin : tag.nameIn? names with
    | none =>
      have hnone : tag.chosen? names chosen = none := by
        unfold WrittenTag.chosen?
        rw [hin]
        rfl
      rw [retagged_of_nameIn?_none hin, hnone]
      rw [hsize] at hrest ⊢
      exact hrest.keep _
    | some name =>
      exact carries_tag (e := ⟨name, offset, _, tag.meant, .selfClosing⟩) hsize
        (text_retagged_single hin gap) hrest
  | paired tag children close more ihc ih =>
    have hsize : offset + size tag.text + 1 = offset + size (tag.text ++ ['>']) := by
      simp only [size_append, size_cons, size_nil, hgt]
      omega
    have hrest := ih (offset + size tag.text + 1 + size children.chars + size close.text)
    have hcontent := (carries_children tag (ihc (offset + size tag.text + 1))).append
      (hrest.keep close.text)
    rw [Forest.reached, Forest.retagged, chars_paired, chars_paired, retagPlan_append, retagPlan_append]
    cases hin : tag.nameIn? names with
    | none =>
      rw [retagged_of_nameIn?_none hin]
      rw [hsize] at hcontent ⊢
      exact hcontent.keep _
    | some name =>
      exact carries_tag (e := ⟨name, offset, _, tag.meant, .paired _ _⟩) hsize
        (text_retagged_paired hin) hcontent

/-! ## The parts of the tree -/

theorem starts_of_reached {f : Forest} {offset : Nat} :
    ∀ e ∈ f.reached names offset, offset ≤ e.start ∧ e.start < offset + size f.chars := by
  have hlt : ('<').utf8Size = 1 := rfl
  have hgt : ('>').utf8Size = 1 := rfl
  induction f generalizing offset with
  | nil => simp [Forest.reached]
  | text t more ih =>
    intro e he
    have := ih e he
    simp only [Forest.chars, size_append]
    omega
  | comment t more ih =>
    intro e he
    have := ih e he
    have hopen : size "<!--".toList = 4 := rfl
    have hclose : size "-->".toList = 3 := rfl
    simp only [Forest.chars, size_append, hopen, hclose]
    omega
  | single tag gap more ih =>
    intro e he
    simp only [chars_single, size_append, size_cons, size_nil, hgt]
    rcases List.mem_append.mp he with he | he
    · obtain ⟨name, -, rfl⟩ := List.mem_map.mp he
      simp only
      omega
    · have := ih e he
      have hslash : ('/').utf8Size = 1 := rfl
      omega
  | paired tag children close more ihc ih =>
    intro e he
    simp only [chars_paired, size_append, size_cons, size_nil, hgt]
    rcases List.mem_append.mp he with he | he
    · obtain ⟨name, -, rfl⟩ := List.mem_map.mp he
      simp only
      omega
    · rcases List.mem_append.mp he with he | he
      · split at he
        · have := ihc e he
          omega
        · exact absurd he List.not_mem_nil
      · have := ih e he
        omega

theorem starts_of_plan {f : Forest} {offset : Nat} :
    ∀ s ∈ retagPlan chosen update (f.reached names offset),
      offset ≤ s.span.start ∧ s.span.start < offset + size f.chars := by
  intro s hs
  obtain ⟨e, he, heq⟩ := mem_retagPlan hs
  rw [heq]
  exact starts_of_reached e he

/-- The splices of a tag begin where it does. -/
theorem start_of_tag {found : Option String} {element : String → Element} {offset : Nat} {s : Splice}
    (hs : s ∈ retagPlan chosen update (found.toList.map element))
    (h : ∀ name, (element name).start = offset) : s.span.start = offset := by
  obtain ⟨e, he, heq⟩ := mem_retagPlan hs
  obtain ⟨name, -, rfl⟩ := List.mem_map.mp he
  rw [heq, h]

variable {doc doc' before before' : List Char} {splices : List Splice}

/-- A tree is a part of a document, and the edit gives it its new tags. -/
def Forest.Sited (names : List String) (chosen : String → Attributes → Bool)
    (update : Attributes → Attributes) (doc doc' : List Char) (splices : List Splice)
    (before before' : List Char) (f : Forest) : Prop :=
  Splice.Part doc doc' splices before before' f.chars (f.retagged names chosen update).chars
    (retagPlan chosen update (f.reached names (size before)))

/-- A tree at the end of a part. -/
theorem sited_behind {a a' : List Char} {first : List Splice} {f : Forest}
    (h : Splice.Part doc doc' splices before before' (a ++ f.chars)
      (a' ++ (f.retagged names chosen update).chars)
      (first ++ retagPlan chosen update (f.reached names (size (before ++ a)))))
    (hfirst : ∀ s ∈ first, s.span.start < size before + size a) :
    f.Sited names chosen update doc doc' splices (before ++ a) (before' ++ a') := by
  refine h.behind hfirst ?_ ?_
  · rw [← size_append]
    exact starts_of_plan
  · rw [← size_append]
    exact carries_retagged f _

theorem sited_text {t : List Char} {rest : Forest}
    (h : (Forest.text t rest).Sited names chosen update doc doc' splices before before') :
    rest.Sited names chosen update doc doc' splices (before ++ t) (before' ++ t) := by
  refine @sited_behind _ _ _ _ _ _ _ _ t t [] rest ?_ (by simp)
  rw [size_append]
  exact h

theorem sited_comment {t : List Char} {rest : Forest}
    (h : (Forest.comment t rest).Sited names chosen update doc doc' splices before before') :
    rest.Sited names chosen update doc doc' splices
      (before ++ ("<!--".toList ++ (t ++ "-->".toList)))
      (before' ++ ("<!--".toList ++ (t ++ "-->".toList))) := by
  refine @sited_behind _ _ _ _ _ _ _ _ _ _ [] rest ?_ (by simp)
  unfold Forest.Sited at h
  rw [← size_comment]
  simpa only [Forest.chars, Forest.retagged, Forest.reached, List.append_assoc, List.nil_append] using h

theorem sited_single {tag : WrittenTag} {gap : List Char} {rest : Forest}
    (h : (Forest.single tag gap rest).Sited names chosen update doc doc' splices before before') :
    rest.Sited names chosen update doc doc' splices
      (before ++ (tag.text ++ ('/' :: gap ++ ['>'])))
      (before' ++ ((tag.retagged names chosen update [' ']).text ++
        ('/' :: (if (tag.chosen? names chosen).isSome then [] else gap) ++ ['>']))) := by
  have hlt : ('<').utf8Size = 1 := rfl
  unfold Forest.Sited at h
  rw [Forest.reached, Forest.retagged, chars_single, chars_single, retagPlan_append,
    size_single] at h
  refine sited_behind h fun s hs => ?_
  rw [start_of_tag hs fun _ => rfl]
  simp only [size_append, WrittenTag.text, size_cons, hlt]
  omega

/-- The content of an element is a part, whether the walk goes on into it or not. -/
theorem part_content {tag : WrittenTag} {children rest : Forest} {close : WrittenClose}
    (h : (Forest.paired tag children close rest).Sited names chosen update doc doc' splices before before') :
    Splice.Part doc doc' splices (before ++ (tag.text ++ ['>']))
      (before' ++ ((tag.retagged names chosen update []).text ++ ['>'])) children.chars
      (if tag.admits names then children.retagged names chosen update else children).chars
      (retagPlan chosen update
        (if tag.admits names then children.reached names (size (before ++ (tag.text ++ ['>']))) else [])) := by
  have hgt : ('>').utf8Size = 1 := rfl
  have hlt : ('<').utf8Size = 1 := rfl
  unfold Forest.Sited at h
  rw [Forest.reached, Forest.retagged, chars_paired, chars_paired, retagPlan_append, retagPlan_append,
    size_open] at h
  refine h.narrow ?_ ?_ ?_ ?_
  · intro s hs
    rw [start_of_tag hs fun _ => rfl]
    simp only [size_append, size_cons, hgt]
    omega
  · intro s hs
    have := (starts_of_plan s hs).1
    simp only [size_append] at this ⊢
    omega
  · rw [← size_append]
    split
    · exact starts_of_plan
    · simp [retagPlan_nil]
  · rw [← size_append]
    exact carries_children tag (carries_retagged children _)

/-- So the walk goes on in a tree that is a part. -/
theorem sited_children {tag : WrittenTag} {children rest : Forest} {close : WrittenClose}
    (h : (Forest.paired tag children close rest).Sited names chosen update doc doc' splices before before')
    (hadmits : tag.admits names = true) :
    children.Sited names chosen update doc doc' splices (before ++ (tag.text ++ ['>']))
      (before' ++ ((tag.retagged names chosen update []).text ++ ['>'])) := by
  have hpart := part_content h
  rw [if_pos hadmits, if_pos hadmits] at hpart
  exact hpart

/-- Behind an element it goes on, too. -/
theorem sited_rest {tag : WrittenTag} {children rest : Forest} {close : WrittenClose}
    (h : (Forest.paired tag children close rest).Sited names chosen update doc doc' splices before before') :
    rest.Sited names chosen update doc doc' splices
      (before ++ (tag.text ++ ['>'] ++ (children.chars ++ close.text)))
      (before' ++ ((tag.retagged names chosen update []).text ++ ['>'] ++
        ((if tag.admits names then children.retagged names chosen update else children).chars ++
          close.text))) := by
  have hgt : ('>').utf8Size = 1 := rfl
  have hlt : ('<').utf8Size = 1 := rfl
  unfold Forest.Sited at h
  rw [Forest.reached, Forest.retagged, chars_paired, chars_paired, retagPlan_append, retagPlan_append,
    size_paired] at h
  refine @sited_behind _ _ _ _ _ _ _ _ _ _ (retagPlan chosen update _ ++ retagPlan chosen update _) rest
    (by simpa only [List.append_assoc] using h) fun s hs => ?_
  simp only [size_append, size_cons, size_nil, hgt]
  rcases List.mem_append.mp hs with hs | hs
  · rw [start_of_tag hs fun _ => rfl]
    omega
  · split at hs
    · have := (starts_of_plan s hs).2
      omega
    · exact absurd hs List.not_mem_nil

end DashboardMarkup.Markup
