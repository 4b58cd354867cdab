import DashboardMarkup.Proofs.Markup.Part

/-!
# The text before a place

Some parts of a document are searched up to an element only. What stands before a place is no tree, since the
elements around the place have no close tags there. A search reports these without content, and what stands
in them beside them.

* `Node.Seen`: an element shows a node, unless its close tag is missing and the node is empty.
* `Leads`: what such a text is made of, and what is found in it.
* `Leads.findClose`: no close tag of an element around the place is found before it.
* `find_ahead`: what is found in a tree before the first element of some other names.
-/

namespace DashboardMarkup.Markup

open Text

variable {names : List String}

/-- In a well-formed tree, the search for a close tag passes over each tag of another name. -/
theorem passed_of_wellFormed {name : String} (hname : Searchable name) {f : Forest} (hf : f.WellFormed) :
    f.AllTags fun t => lower t.name = lower name.toList ∨ t.PassedBy name := by
  refine (hf.nested.readable.and hf.plain).imp fun t ht => ?_
  by_cases heq : lower t.name = lower name.toList
  · exact Or.inl heq
  · exact Or.inr (passedBy_of_plain ht.1 ht.2 hname heq)

/-- An element whose close tag is not found. -/
theorem scan_unclosed {limit : Nat} {name : String} {text tail rest : List Char} {tag : OpenTag}
    (hcomment : comment? text = none) (hopening : opening? names text = some (name, tail))
    (hfinish : finish? tail = some (tag, rest)) (hself : tag.selfClosing = false)
    (hclose : findClose limit name 0 rest = .ok none) :
    scan limit names text = (scan limit names rest).map
      (⟨name, limit - size text, limit - size rest, tag.attrs, .unclosed⟩ :: ·) := by
  cases text with
  | nil => exact absurd hopening (by simp [opening?])
  | cons c cs =>
    rw [scan_cons, hcomment, hopening]
    simp only [hfinish]
    rw [if_neg (by simp [hself]), hclose]

/-! ## Elements without their close tags -/

namespace Element

/-- An element, as one that closes itself if its close tag is missing. Neither has any content. -/
def asClosed (e : Element) : Element :=
  if e.closed then e else { e with body := .selfClosing }

theorem asClosed_of_closed {e : Element} (h : e.closed = true) : e.asClosed = e :=
  if_pos h

@[simp] theorem name_asClosed (e : Element) : e.asClosed.name = e.name := by
  unfold asClosed
  split <;> rfl

@[simp] theorem start_asClosed (e : Element) : e.asClosed.start = e.start := by
  unfold asClosed
  split <;> rfl

@[simp] theorem attrs_asClosed (e : Element) : e.asClosed.attrs = e.attrs := by
  unfold asClosed
  split <;> rfl

@[simp] theorem inner?_asClosed (e : Element) : e.asClosed.inner? = e.inner? := by
  obtain ⟨name, start, openEnd, attrs, body⟩ := e
  cases body <;> rfl

@[simp] theorem content_asClosed (e : Element) : e.asClosed.content = e.content := by
  obtain ⟨name, start, openEnd, attrs, body⟩ := e
  cases body <;> rfl

@[simp] theorem innerText_asClosed (e : Element) (doc : List Char) :
    e.asClosed.innerText doc = e.innerText doc := by
  unfold innerText
  rw [inner?_asClosed]

end Element

/-- **An element shows a node, or is one without its close tag** and the node is empty. -/
def Node.Seen (doc : List Char) (n : Node) (e : Element) : Prop :=
  n.Shown doc e.asClosed

theorem Node.Shown.seen {doc : List Char} {n : Node} {e : Element} (h : n.Shown doc e) : n.Seen doc e := by
  unfold Node.Seen
  rw [Element.asClosed_of_closed h.closed]
  exact h

/-- The node of an open tag without its close tag. -/
def WrittenTag.lone (names : List String) (tag : WrittenTag) : List Node :=
  (tag.nameIn? names).toList.map fun name => ⟨name, tag.meant, .nil⟩

/-! ## Texts that lead to a place -/

/-- **A text of well-formed trees and open tags** that have no close tags, with what a search finds in it. -/
inductive Leads (names : List String) : List Char → List Node → Prop
  | nil : Leads names [] []
  | tree {f : Forest} {t : List Char} {ns : List Node} : f.WellFormed → Leads names t ns →
      Leads names (f.chars ++ t) (f.nodes names ++ ns)
  | opened {tag : WrittenTag} {t : List Char} {ns : List Node} : tag.Readable → tag.Plain →
      Leads names t ns → Leads names (tag.text ++ '>' :: t) (tag.lone names ++ ns)

/-- **No close tag of an element around a place is found before it.** -/
theorem Leads.findClose {name : String} (hname : Searchable name) {t : List Char} {ns : List Node}
    (h : Leads names t ns) (limit depth : Nat) : Markup.findClose limit name depth t = .ok none := by
  induction h generalizing depth with
  | nil => exact findClose_nil limit name depth
  | tree hf _ ih =>
    rw [findClose_forest hname hf.nested (passed_of_wellFormed hname hf)]
    exact ih depth
  | @opened tag t ns htag hplain _ ih =>
    by_cases heq : lower tag.name = lower name.toList
    · rw [findClose_paired htag hname heq]
      exact ih (depth + 1)
    · have hlt : '<' ∉ ['>'] := by decide
      rw [passedBy_of_plain htag hplain hname heq _ _ _ rfl, ← List.singleton_append, findClose_append hlt]
      exact ih depth

/-- **A search of such a text** finds what stands in it. -/
theorem Leads.scan (hnames : ∀ name ∈ names, Searchable name) {t : List Char} {ns : List Node}
    (h : Leads names t ns) (before behind : List Char) :
    ∃ es, Markup.scan (size before + size t) names t = .ok es ∧
      List.Forall₂ (Node.Seen (before ++ (t ++ behind))) ns es := by
  induction h generalizing before with
  | nil => exact ⟨[], scan_nil _ _, .nil⟩
  | @tree f t ns hf _ ih =>
    obtain ⟨front, hfront, hscan⟩ := part_forest hnames hf before t behind
    obtain ⟨es, hes, hseen⟩ := ih (before ++ f.chars)
    have hlimit : size (before ++ f.chars) + size t = size before + size (f.chars ++ t) := by
      simp only [size_append]
      omega
    rw [hlimit] at hes
    refine ⟨front ++ es, by rw [hscan, hes]; rfl, List.rel_append ?_ (by simpa using hseen)⟩
    simpa using hfront.imp fun n e hn => hn.seen
  | @opened tag t ns htag hplain ht ih =>
    obtain ⟨es, hes, hseen⟩ := ih (before ++ (tag.text ++ ['>']))
    have hlimit : size (before ++ (tag.text ++ ['>'])) + size t =
        size before + size (tag.text ++ '>' :: t) := by
      simp only [size_append, size_cons, size_nil]
      omega
    have hdoc : before ++ (tag.text ++ '>' :: t ++ behind) =
        (before ++ (tag.text ++ ['>'])) ++ (t ++ behind) := by
      simp
    rw [hlimit] at hes
    rw [hdoc]
    cases hin : tag.nameIn? names with
    | none =>
      have hlt : '<' ∉ ['>'] := by decide
      rw [scan_tag_other htag hplain hnames hin rfl, ← List.singleton_append, scan_append hlt]
      refine ⟨es, hes, ?_⟩
      simpa [WrittenTag.lone, hin] using hseen
    | some name =>
      obtain ⟨hname, -⟩ := searchable_of_nameIn? hnames hin
      have hopening := @opening?_tag names tag htag hnames ('>' :: t) rfl
      rw [hin, Option.map_some] at hopening
      have hclose := ht.findClose hname (size before + size (tag.text ++ '>' :: t)) 0
      have hscan := scan_unclosed (comment?_tag htag _) hopening (finish?_paired htag.delimited t) rfl hclose
      rw [hes] at hscan
      have hopenEnd : size before + size (tag.text ++ '>' :: t) - size t =
          size (before ++ (tag.text ++ ['>'])) := by
        omega
      refine ⟨_, hscan, ?_⟩
      rw [hopenEnd, WrittenTag.lone, hin]
      exact .cons (shown_single name _ _ rfl) hseen

/-- A search finds the same in a range of a document that has such a text. -/
theorem Leads.find (hnames : ∀ name ∈ names, Searchable name) {t : List Char} {ns : List Node}
    (h : Leads names t ns) (before behind : List Char) :
    ∃ es, Markup.find (before ++ (t ++ behind)) ⟨size before, size before + size t⟩ names = .ok es ∧
      List.Forall₂ (Node.Seen (before ++ (t ++ behind))) ns es := by
  rw [find_append]
  exact h.scan hnames before behind

/-! ## Before the first element of some names -/

/-- What is found in a tree before its first element of some names to stop at. -/
def Forest.ahead (stop names : List String) : Forest → List Node
  | nil => []
  | text _ rest => rest.ahead stop names
  | comment _ rest => rest.ahead stop names
  | single tag gap rest =>
    if (tag.nameIn? stop).isSome then [] else (single tag gap nil).nodes names ++ rest.ahead stop names
  | paired tag children close rest =>
    if (tag.nameIn? stop).isSome then []
    else if (children.nodes stop).isEmpty then
      (paired tag children close nil).nodes names ++ rest.ahead stop names
    else tag.lone names ++ children.ahead stop names

/-- Where there is no element to stop at, this is all. -/
theorem ahead_eq_nodes {stop : List String} {f : Forest} (h : f.nodes stop = []) :
    f.ahead stop names = f.nodes names := by
  induction f with
  | nil => rfl
  | text t rest ih => exact ih h
  | comment t rest ih => exact ih h
  | single tag gap rest ih =>
    obtain ⟨hfirst, hrest⟩ := List.append_eq_nil_iff.mp h
    cases hin : tag.nameIn? stop with
    | none => simp [Forest.ahead, Forest.nodes, hin, ih hrest]
    | some name =>
      rw [hin] at hfirst
      exact absurd hfirst (by simp)
  | paired tag children close rest _ ih =>
    obtain ⟨hfirst, hrest⟩ := List.append_eq_nil_iff.mp h
    cases hin : tag.nameIn? stop with
    | none =>
      rw [hin] at hfirst
      simp only [] at hfirst
      simp [Forest.ahead, Forest.nodes, hin, hfirst, ih hrest]
    | some name =>
      rw [hin] at hfirst
      exact absurd hfirst (by simp)

/-- **The text of a tree up to its first element** of some names leads there. -/
theorem leads_ahead {stop : List String} {f : Forest} (hf : f.WellFormed) (hne : f.nodes stop ≠ [])
    (offset : Nat) :
    ∃ lead rest, f.chars = lead ++ rest ∧ Leads names lead (f.ahead stop names) ∧
      (f.outermost stop offset).head?.map Element.start = some (offset + size lead) := by
  obtain ⟨hnested, hplain⟩ := hf
  -- what stands in front of a tree without an element to stop at goes into the lead
  have hstep : ∀ {x rest : Forest} {offset next : Nat}, x.WellFormed → next = offset + size x.chars →
      (∃ lead behind, rest.chars = lead ++ behind ∧ Leads names lead (rest.ahead stop names) ∧
        (rest.outermost stop next).head?.map Element.start = some (next + size lead)) →
      ∃ lead behind, x.chars ++ rest.chars = lead ++ behind ∧
        Leads names lead (x.nodes names ++ rest.ahead stop names) ∧
        (rest.outermost stop next).head?.map Element.start = some (offset + size lead) := by
    rintro x rest offset next hx rfl ⟨lead, behind, hchars, hlead, hstart⟩
    refine ⟨x.chars ++ lead, behind, by rw [hchars, List.append_assoc], .tree hx hlead, ?_⟩
    rw [hstart, size_append, Nat.add_assoc]
  induction f generalizing offset with
  | nil => exact absurd rfl hne
  | text t rest ih =>
    have hx : (Forest.text t .nil).WellFormed := ⟨⟨hnested.1, trivial⟩, trivial⟩
    have hsize : offset + size t = offset + size (Forest.text t .nil).chars := by simp [Forest.chars]
    have h := hstep hx hsize (ih hne _ hnested.2 hplain)
    simpa [Forest.chars, Forest.nodes, Forest.ahead, Forest.outermost] using h
  | comment t rest ih =>
    have hx : (Forest.comment t .nil).WellFormed := ⟨⟨hnested.1, trivial⟩, trivial⟩
    have hsize : offset + 4 + size t + 3 = offset + size (Forest.comment t .nil).chars := by
      have hlt : size "<!--".toList = 4 := rfl
      have hgt : size "-->".toList = 3 := rfl
      simp only [Forest.chars, size_append, size_nil, hlt, hgt]
      omega
    have h := hstep hx hsize (ih hne _ hnested.2 hplain)
    simpa [Forest.chars, Forest.nodes, Forest.ahead, Forest.outermost] using h
  | single tag gap rest ih =>
    cases hin : tag.nameIn? stop with
    | some name =>
      refine ⟨[], _, (List.nil_append _).symm, ?_, ?_⟩
      · simpa [Forest.ahead, hin] using Leads.nil
      · simp [Forest.outermost, hin]
    | none =>
      have hrest : rest.nodes stop ≠ [] := by simpa [Forest.nodes, hin] using hne
      have hx : (Forest.single tag gap .nil).WellFormed :=
        ⟨⟨hnested.1, hnested.2.1, trivial⟩, hplain.1, trivial⟩
      have hsize : offset + size tag.text + 1 + size gap + 1 =
          offset + size (Forest.single tag gap .nil).chars := by
        have hslash : ('/').utf8Size = 1 := rfl
        have hgt : ('>').utf8Size = 1 := rfl
        simp only [Forest.chars, size_append, size_cons, size_nil, hslash, hgt]
        omega
      have h := hstep hx hsize (ih hrest _ hnested.2.2 hplain.2)
      simpa [Forest.chars, Forest.ahead, Forest.outermost, hin] using h
  | paired tag children close rest ihc ih =>
    obtain ⟨htag, hclose, hsame, hchildren, hrest⟩ := hnested
    cases hin : tag.nameIn? stop with
    | some name =>
      refine ⟨[], _, (List.nil_append _).symm, ?_, ?_⟩
      · simpa [Forest.ahead, hin] using Leads.nil
      · simp [Forest.outermost, hin]
    | none =>
      by_cases hnone : children.nodes stop = []
      · have hmore : rest.nodes stop ≠ [] := by simpa [Forest.nodes, hin, hnone] using hne
        have hx : (Forest.paired tag children close .nil).WellFormed :=
          ⟨⟨htag, hclose, hsame, hchildren, trivial⟩, hplain.1, hplain.2.1, trivial⟩
        have hsize : offset + size tag.text + 1 + size children.chars + size close.text =
            offset + size (Forest.paired tag children close .nil).chars := by
          have hgt : ('>').utf8Size = 1 := rfl
          simp only [Forest.chars, size_append, size_cons, size_nil, hgt]
          omega
        have h := hstep hx hsize (ih hmore _ hrest hplain.2.2)
        simpa [Forest.chars, Forest.ahead, Forest.outermost, hin, hnone, outermost_eq_nil hnone] using h
      · obtain ⟨lead, behind, hchars, hlead, hstart⟩ := ihc hnone (offset + size tag.text + 1) hchildren hplain.2.1
        refine ⟨tag.text ++ '>' :: lead, behind ++ (close.text ++ rest.chars), ?_, ?_, ?_⟩
        · simp [Forest.chars, hchars]
        · simpa [Forest.ahead, hin, hnone] using Leads.opened htag hplain.1 hlead
        · obtain ⟨e, he, hfirst⟩ := Option.map_eq_some_iff.mp hstart
          have hgt : ('>').utf8Size = 1 := rfl
          simp only [Forest.outermost, hin, List.head?_append, he, Option.some_or, Option.map_some, hfirst,
            size_append, size_cons, hgt, Option.some.injEq]
          omega

/-- **What is found in a tree before its first element of some names**, wherever it stands. -/
theorem find_ahead {stop : List String} (hnames : ∀ name ∈ names, Searchable name) {f : Forest}
    (hf : f.WellFormed) (before behind : List Char) :
    ∃ es, find (before ++ (f.chars ++ behind)) ⟨size before,
        ((f.outermost stop (size before)).head?.map Element.start).getD (size before + size f.chars)⟩
          names = .ok es ∧
      List.Forall₂ (Node.Seen (before ++ (f.chars ++ behind))) (f.ahead stop names) es := by
  by_cases hnone : f.nodes stop = []
  · rw [outermost_eq_nil hnone, ahead_eq_nodes hnone]
    obtain ⟨es, hfind, hshown⟩ := find_nodes hnames hf before behind
    exact ⟨es, hfind, hshown.imp fun n e hn => hn.seen⟩
  · obtain ⟨lead, rest, hchars, hlead, hstart⟩ := leads_ahead hf hnone (size before)
    rw [hstart, Option.getD_some, hchars, List.append_assoc]
    exact hlead.find hnames before (rest ++ behind)

end DashboardMarkup.Markup
