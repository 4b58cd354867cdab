import DashboardMarkup.Proofs.Edit.Block
import DashboardMarkup.Proofs.Json.Reader

/-!
# Objects written into blocks

The configuration of a widget and the style of a group are JSON objects in blocks of their own. The editor
writes an object into the markup as it is printed, and the search for the close tag of the block does not
know strings.

* `IslandWritten`: the object reads back from the block, and every other element is found as before.
* `islands_read_back`: so it does if no `<` is printed.
* `islands_cut_off`: a string with a close tag in it ends the block too early.
-/

namespace DashboardMarkup.Edit

open Markup Text

/-! ## Islands -/

/-- A block around a text. -/
def island (name : String) (body : List Char) : Forest :=
  .paired ⟨name.toList, [], []⟩ (.text body .nil) ⟨name.toList, []⟩ .nil

theorem chars_island (name : String) (body : List Char) :
    (island name body).chars =
      '<' :: ((name.toList ++ '>' :: (body ++ ('<' :: '/' :: name.toList))) ++ ['>']) := by
  simp [island, Forest.chars, WrittenTag.text, WrittenTag.body, WrittenClose.text]

theorem trim_island (name : String) (body : List Char) :
    Text.trim (island name body).chars = (island name body).chars := by
  rw [chars_island]
  exact trim_eq_self (by decide) (by decide) _

theorem wellFormed_island {name : String} (hname : TagName name) {body : List Char} (hbody : '<' ∉ body) :
    (island name body).WellFormed :=
  ⟨⟨⟨hname.1, hname.2, by simp, by simp⟩, ⟨hname.2, by simp⟩, rfl, ⟨hbody, trivial⟩, trivial⟩,
    fun a ha => absurd ha List.not_mem_nil, trivial, trivial⟩

theorem nodes_island {names : List String} {name : String}
    (hin : WrittenTag.nameIn? ⟨name.toList, [], []⟩ names = some name) (body : List Char) :
    (island name body).nodes names = [⟨name, [], .text body .nil⟩] := by
  simp only [island, Forest.nodes, hin, List.append_nil]
  rfl

theorem reachedNodes_island {names : List String} {name : String}
    (hother : ∀ s ∈ names, lower s.toList ≠ lower name.toList) (body : List Char) :
    (island name body).reachedNodes names = [] := by
  have hin : WrittenTag.nameIn? ⟨name.toList, [], []⟩ names = none :=
    List.find?_eq_none.mpr fun s hs hsame => hother s hs (beq_iff_eq.mp hsame).symm
  simp [island, Forest.reachedNodes, hin]

theorem configBlock_eq (o : Json.Object) :
    configBlock o = (island "config" ('\n' :: ((Json.object o).pretty ++ ['\n']))).chars := by
  have hopen : "<config>\n".toList = '<' :: ("config".toList ++ ['>', '\n']) := by decide
  have hclose : "\n</config>".toList = '\n' :: '<' :: '/' :: ("config".toList ++ ['>']) := by decide
  unfold configBlock
  rw [chars_island, hopen, hclose]
  simp only [List.cons_append, List.append_assoc, List.nil_append]

theorem styleBlock_eq (o : Json.Object) :
    styleBlock o = (island "style" (Json.object o).compact).chars := by
  have hopen : "<style>".toList = '<' :: ("style".toList ++ ['>']) := by decide
  have hclose : "</style>".toList = '<' :: '/' :: ("style".toList ++ ['>']) := by decide
  unfold styleBlock
  rw [chars_island, hopen, hclose]
  simp only [List.cons_append, List.append_assoc, List.nil_append]

/-- An object is printed between braces, so that nothing of it is trimmed off. -/
theorem pretty_eq (o : Json.Object) : ∃ middle, (Json.object o).pretty = '{' :: (middle ++ ['}']) := by
  unfold Json.pretty
  cases o with
  | nil => exact ⟨[], by rw [Json.prettyAt]; rfl⟩
  | cons member o => exact ⟨_, by rw [Json.prettyAt]; simp⟩

theorem trim_pretty (o : Json.Object) :
    Text.trim ('\n' :: ((Json.object o).pretty ++ ['\n'])) = (Json.object o).pretty := by
  obtain ⟨middle, hpretty⟩ := pretty_eq o
  have hstart : trimStart ('\n' :: ((Json.object o).pretty ++ ['\n'])) =
      (Json.object o).pretty ++ ['\n'] := by
    rw [hpretty]
    rfl
  have hlast : trimEnd (('{' :: middle) ++ ['}']) = ('{' :: middle) ++ ['}'] :=
    dropEndWhile_append_of_last _ (by decide)
  unfold Text.trim
  rw [hstart, trimEnd_append (by decide), hpretty]
  exact hlast

theorem trim_compact (o : Json.Object) :
    Text.trim (Json.object o).compact = (Json.object o).compact := by
  rw [Json.compact]
  exact trim_eq_self (by decide) (by decide) _

/-! ## What a written object leaves -/

/-- **What an edit that changes one part of a document leaves of an element**: its content, but for that
part. -/
def Keeps (doc doc' cut put : List Char) (e e' : Element) : Prop :=
  ∃ text text', e.innerText doc = .ok text ∧ e'.innerText doc' = .ok text' ∧
    (text' = text ∨ ∃ before behind, text = before ++ (cut ++ behind) ∧ text' = before ++ (put ++ behind))

/-- **An object that is written into a block of an element reads back.** The element is the only one with
the id as before, and the block that is found in it spells the object. Of all elements that are reached, in
the same order, each has its name, its attributes and its content, but for the part that is written; only
if the element closed itself, its content is new. -/
structure IslandWritten (doc doc' : List Char) (names : List String) (id : String) (e : Element)
    (searched : List String) (name : String) (o : Json.Object) : Prop where
  readsBack : ∃ e' found b body, elementsById doc' names id = .ok [e'] ∧
    find doc' e'.content searched = .ok found ∧ found.find? (·.name == name) = some b ∧
      b.innerText doc' = .ok body ∧ Json.readObject (Text.trim body) = .ok o
  others : ∃ before cut put behind all all', doc = before ++ (cut ++ behind) ∧
    doc' = before ++ (put ++ behind) ∧ walk doc (searchedNames nodeNames) ⟨0, size doc⟩ = .ok all ∧
      walk doc' (searchedNames nodeNames) ⟨0, size doc'⟩ = .ok all' ∧
        List.Forall₂ (fun r r' => r'.name = r.name ∧ r'.attrs = r.attrs ∧
          (Keeps doc doc' cut put r r' ∨ r.answers names id = true ∧ e.selfClosing = true)) all all'

/-! ## The written object reads back -/

theorem answers_of_eq {e e' : Element} (hname : e'.name = e.name) (hattrs : e'.attrs = e.attrs)
    (names : List String) (id : String) : e'.answers names id = e.answers names id := by
  unfold Element.answers
  rw [hname, hattrs]

/-- Nodes that are kept are shown by elements that are. -/
theorem keeps_of_kept {doc doc' cut put : List Char} {n n' : Node} {e e' : Element} (h : n.Kept cut put n')
    (he : n.Shown doc e) (he' : n'.Shown doc' e') :
    e'.name = e.name ∧ e'.attrs = e.attrs ∧ Keeps doc doc' cut put e e' := by
  refine ⟨?_, ?_, _, _, he.innerText, he'.innerText, ?_⟩
  · rw [he.name, he'.name, h.name]
  · rw [he.attrs, he'.attrs, h.attrs]
  · rcases h.content with hsame | hchange
    · left
      rw [hsame]
    · exact Or.inr hchange

/-- Three relations between members of lists, one behind another. -/
theorem forall₂_through {α β γ δ : Type} {A : α → β → Prop} {R : α → γ → Prop} {B : γ → δ → Prop}
    {S : β → δ → Prop} (hS : ∀ a b c d, A a b → R a c → B c d → S b d) {as : List α} {bs : List β}
    {cs : List γ} {ds : List δ} (hA : List.Forall₂ A as bs) (hR : List.Forall₂ R as cs)
    (hB : List.Forall₂ B cs ds) : List.Forall₂ S bs ds := by
  induction hR generalizing bs ds with
  | nil =>
    cases hA with
    | nil =>
      cases hB with
      | nil => exact .nil
  | cons hac _ ih =>
    cases hA with
    | cons hab hA =>
      cases hB with
      | cons hcd hB => exact .cons (hS _ _ _ _ hab hac hcd) (ih hA hB)

/-- Elements with the same names and attributes are chosen alike. -/
theorem exists_filter_answers {es es' : List Element} {names : List String} {id : String} {e : Element}
    (h : List.Forall₂ (fun e e' : Element => e'.name = e.name ∧ e'.attrs = e.attrs) es es')
    (hone : es.filter (·.answers names id) = [e]) {e' : Element} (he' : e' ∈ es')
    (hanswers : e'.answers names id = true) : es'.filter (·.answers names id) = [e'] := by
  have hfilter := List.rel_filter (p := (·.answers names id)) (q := (·.answers names id))
    (fun e e' hsame => by simp only [answers_of_eq hsame.1 hsame.2]) h
  rw [hone] at hfilter
  have hlength := hfilter.length_eq
  obtain ⟨only, honly⟩ := List.length_eq_one_iff.mp hlength.symm
  have hmem : e' ∈ es'.filter (·.answers names id) := List.mem_filter.mpr ⟨he', hanswers⟩
  rw [honly] at hmem ⊢
  rw [List.mem_singleton.mp hmem]

section

variable {c : Context} {block old x y : Forest} {names searched : List String} {name id : String}
  {e : Element} {n : Node}

/-- What the walk reaches in a well-formed document shows the nodes that it has. -/
theorem shown_reached_whole (names : List String) (f : Forest) :
    List.Forall₂ (Node.Shown f.chars) (f.reachedNodes names) (f.reached names 0) := by
  have hdoc : f.chars = [] ++ (f.chars ++ []) := by simp
  exact shown_reached names hdoc

/-- The first of some elements that has a name shows the first of their nodes that has it. -/
theorem find?_shown {doc : List Char} {ns : List Node} {es : List Element}
    (h : List.Forall₂ (Node.Shown doc) ns es) (hn : ns.find? (·.name == name) = some n) :
    ∃ b, es.find? (·.name == name) = some b ∧ n.Shown doc b := by
  induction h with
  | nil => exact absurd hn (by simp)
  | @cons m e ns es hm _ ih =>
    by_cases hname : m.name = name
    · rw [List.find?_cons_of_pos (by simpa using hname)] at hn
      obtain rfl := Option.some.inj hn
      exact ⟨e, List.find?_cons_of_pos (by simpa [hm.name] using hname), hm⟩
    · rw [List.find?_cons_of_neg (by simpa using hname)] at hn
      obtain ⟨b, hb, hshown⟩ := ih hn
      exact ⟨b, by rw [List.find?_cons_of_neg (by simpa [hm.name] using hname), hb], hshown⟩

/-- **Everything is reached as before**, if what the walk finds in the old block is nothing. -/
theorem reached_of_rewritten (h : Rewritten searched name block old x y)
    (hspells : x.Spells names (size c.before) e) (hblock : block.nodes searched = [n]) (hname : n.name = name)
    (hnew : block.reachedNodes names = [])
    (hold : containerNames.contains e.name = true → old.reachedNodes names = []) :
    ∃ before cut put behind, (c.fill x).chars = before ++ (cut ++ behind) ∧
      (c.fill y).chars = before ++ (put ++ behind) ∧
      List.Forall₂ (fun r r' : Element => r'.name = r.name ∧ r'.attrs = r.attrs ∧
        (Keeps (c.fill x).chars (c.fill y).chars cut put r r' ∨
          (r.name = e.name ∧ r.attrs = e.attrs) ∧ e.selfClosing = true))
        ((c.fill x).reached names 0) ((c.fill y).reached names 0) := by
  obtain ⟨content, content', cut, put, before, behind, hx, hy, hreached, hreached', -, hkept, hrel⟩ :=
    h.reached hspells hblock hname hnew hold
  refine ⟨c.before ++ before, cut, put, behind ++ c.behind, ?_, ?_, ?_⟩
  · rw [Context.chars_fill, hx]
    simp
  · rw [Context.chars_fill, hy]
    simp
  · -- the nodes are kept, or are those of the element that closed itself
    have hnodes : List.Forall₂ (fun n n' => Node.Kept cut put n n' ∨
        ((n.name = e.name ∧ n.attrs = e.attrs) ∧ n'.name = n.name ∧ n'.attrs = n.attrs) ∧
          e.selfClosing = true)
        ((c.fill x).reachedNodes names) ((c.fill y).reachedNodes names) := by
      refine rel_reachedNodes_fill hx hy (fun n n' hn => Or.inl hn) ?_ c
      rw [hreached, hreached']
      refine .cons ?_ (hrel.imp fun n n' hn => Or.inl hn)
      rcases hkept with hself | hkept
      · exact Or.inr ⟨⟨⟨rfl, rfl⟩, rfl, rfl⟩, hself⟩
      · exact Or.inl hkept
    refine forall₂_through ?_ (shown_reached_whole names _) hnodes (shown_reached_whole names _)
    intro n r n' r' hr hnn hr'
    rcases hnn with hnn | ⟨⟨htarget, hsame⟩, hself⟩
    · obtain ⟨hname, hattrs, hkeeps⟩ := keeps_of_kept hnn hr hr'
      exact ⟨hname, hattrs, Or.inl hkeeps⟩
    · refine ⟨?_, ?_, Or.inr ⟨⟨?_, ?_⟩, hself⟩⟩
      · rw [hr'.name, hsame.1, hr.name]
      · rw [hr'.attrs, hsame.2, hr.attrs]
      · rw [hr.name, htarget.1]
      · rw [hr.attrs, htarget.2]

/-- **The block is found in the element with the id.** -/
theorem block_of_rewritten (hf' : (c.fill y).WellFormed) (hc : c.Admitted (searchedNames names))
    (hsearched : ∀ s ∈ searched, Searchable s) (h : Rewritten searched name block old x y)
    (hspells : x.Spells (searchedNames names) (size c.before) e) (hblock : block.nodes searched = [n])
    (hname : n.name = name) (hnew : block.reachedNodes (searchedNames names) = [])
    (hold : containerNames.contains e.name = true → old.reachedNodes (searchedNames names) = [])
    (hone : ((c.fill x).reached (searchedNames names) 0).filter (·.answers names id) = [e]) :
    ∃ e' found b, ((c.fill y).reached (searchedNames names) 0).filter (·.answers names id) = [e'] ∧
      find (c.fill y).chars e'.content searched = .ok found ∧ found.find? (·.name == name) = some b ∧
      n.Shown (c.fill y).chars b := by
  obtain ⟨_, content', _, _, _, _, -, -, -, hreached', hfind, -, -⟩ :=
    h.reached hspells hblock hname hnew hold
  have htarget : ⟨e.name, e.attrs, content'⟩ ∈ (c.fill y).reachedNodes (searchedNames names) :=
    mem_reachedNodes_fill hc (by rw [hreached']; exact List.mem_cons_self)
  obtain ⟨e', he', hshown⟩ := exists_of_mem_left (shown_reached_whole _ _) htarget
  obtain ⟨found, hfound, hnodes⟩ := hshown.find (wellFormed_of_mem_reachedNodes hf' htarget) hsearched
  obtain ⟨b, hb, hbshown⟩ := find?_shown hnodes hfind
  obtain ⟨_, _, _, _, -, -, hall⟩ := reached_of_rewritten (c := c) h hspells hblock hname hnew hold
  have hanswers : e.answers names id = true :=
    (List.mem_filter.mp (by rw [hone]; exact List.mem_singleton.mpr rfl : e ∈ _)).2
  refine ⟨e', found, b, exists_filter_answers (hall.imp fun r r' hr => ⟨hr.1, hr.2.1⟩) hone he' ?_, hfound,
    hb, hbshown⟩
  rw [answers_of_eq hshown.name hshown.attrs]
  exact hanswers

end

/-- **A text without `<` that is written into a block of an element reads back.** -/
theorem islandWritten {f : Forest} (hf : f.WellFormed) {names more : List String}
    (hmore : searchedNames nodeNames = searchedNames names ++ more)
    (hnames : ∀ s ∈ searchedNames names, TagName s) {searched : List String}
    (hsearched : ∀ s ∈ searched, Searchable s) {name : String} (hname : TagName name)
    (hin : WrittenTag.nameIn? ⟨name.toList, [], []⟩ searched = some name)
    (hother : ∀ s ∈ searchedNames nodeNames, lower s.toList ≠ lower name.toList) {id : String}
    {e : Element} (he : elementsById f.chars names id = .ok [e])
    (hvalues : e.selfClosing = true → ∀ a ∈ e.attrs, '<' ∉ a.value.toList) {o : Json.Object}
    {body : List Char} (hbody : '<' ∉ body) (hread : Json.readObject (Text.trim body) = .ok o)
    (hinside : containerNames.contains e.name = true → ∀ found b,
      find f.chars e.content searched = .ok found → found.find? (·.name == name) = some b →
        find f.chars b.content (searchedNames nodeNames) = .ok [])
    (place : Place) :
    ∃ found doc', find f.chars e.content searched = .ok found ∧
      Splice.carryOut f.chars
        (writeBlock f.chars e (found.find? (·.name == name)) place (island name body).chars) = .ok doc' ∧
      IslandWritten f.chars doc' names id e searched name o := by
  have hall : ∀ s ∈ searchedNames nodeNames, Searchable s := searchable_of_mem_searched
  have hsub : ∀ s ∈ searchedNames names, s ∈ searchedNames nodeNames := fun s hs => by
    rw [hmore]
    exact List.mem_append_left _ hs
  have hone := elementsById_wellFormed (fun s hs => (hnames s hs).searchable) hf id
  rw [he] at hone
  have hone := (Except.ok.inj hone).symm
  obtain ⟨hmem, hanswers⟩ := List.mem_filter.mp (by rw [hone]; exact List.mem_singleton.mpr rfl : e ∈ _)
  obtain ⟨found, c, old, x, y, hfind, rfl, hc, hspells, hrewritten, hf', hreplaces, hcarry⟩ :=
    exists_rewritten hf hnames hmem hsearched name (wellFormed_island hname hbody) (trim_island name body)
      hvalues place
  have hold : ∀ some : List String, (∀ s ∈ some, s ∈ searchedNames nodeNames) →
      containerNames.contains e.name = true → old.reachedNodes some = [] := by
    intro some hsome hcontainer
    rcases hreplaces with rfl | ⟨b, n, hb, hshown, hwell, hcontent⟩
    · rfl
    · obtain ⟨inner, hinner, hnodes⟩ := hshown.find hwell hall
      rw [hinside hcontainer found b hfind hb] at hinner
      obtain rfl := Except.ok.inj hinner
      rw [hcontent some fun s hs => hother s (hsome s hs)]
      exact reachedNodes_eq_nil hsome (List.forall₂_nil_right_iff.mp hnodes)
  have hnodes := nodes_island hin body
  refine ⟨found, _, hfind, hcarry, ?_, ?_⟩
  · obtain ⟨e', found', b, hone', hfind', hb, hshown⟩ := block_of_rewritten hf' hc hsearched hrewritten hspells
      hnodes rfl (reachedNodes_island (fun s hs => hother s (hsub s hs)) body)
      (hold _ hsub) hone
    refine ⟨e', found', b, _, ?_, hfind', hb, hshown.innerText, ?_⟩
    · rw [elementsById_wellFormed (fun s hs => (hnames s hs).searchable) hf', hone']
    · have htext : (Forest.text body .nil).chars = body := by simp [Forest.chars]
      rw [htext]
      exact hread
  · have hspells' : x.Spells (searchedNames nodeNames) (size c.before) e := by
      rw [hmore]
      exact hspells.append more
    obtain ⟨before, cut, put, behind, hdoc, hdoc', hrel⟩ := reached_of_rewritten hrewritten hspells' hnodes
      rfl (reachedNodes_island hother body) (hold _ fun s hs => hs)
    refine ⟨before, cut, put, behind, _, _, hdoc, hdoc', walk_wellFormed hall hf, walk_wellFormed hall hf',
      hrel.imp fun r r' hr => ⟨hr.1, hr.2.1, hr.2.2.imp_right fun htarget => ⟨?_, htarget.2⟩⟩⟩
    rw [answers_of_eq htarget.1.1 htarget.1.2]
    exact hanswers

/-! ## The two edits -/

/-- An element that the walk reaches shows a node. -/
theorem exists_shown_of_reached {f : Forest} (hf : f.WellFormed) {names : List String} {e : Element}
    (he : e ∈ f.reached names 0) : ∃ n : Node, n.content.WellFormed ∧ n.Shown f.chars e := by
  obtain ⟨n, hn, hshown⟩ := exists_of_mem_left (R := flip (Node.Shown f.chars))
    (List.Forall₂.flip (shown_reached_whole names f)) he
  exact ⟨n, wellFormed_of_mem_reachedNodes hf hn, hshown⟩

/-- What a search finds in an element that shows a node. -/
theorem shown_of_mem_find {doc : List Char} {e : Element} {n : Node} (hshown : n.Shown doc e)
    (hn : n.content.WellFormed) {names : List String} (hnames : ∀ s ∈ names, Searchable s)
    {found : List Element} (hfound : find doc e.content names = .ok found) {b : Element} (hb : b ∈ found) :
    ∃ m : Node, m.Shown doc b ∧ b.name ∈ names := by
  obtain ⟨found', hfind, hnodes⟩ := hshown.find hn hnames
  rw [hfound] at hfind
  obtain rfl := Except.ok.inj hfind
  obtain ⟨m, hm, hbshown⟩ := exists_of_mem_left (R := flip (Node.Shown doc)) (List.Forall₂.flip hnodes) hb
  refine ⟨m, hbshown, ?_⟩
  rw [hbshown.name]
  exact name_of_mem_nodes hm

/-- A configuration is written as a block, whatever object was there. -/
theorem setConfigPlan_eq {doc : List Char} {id : String} {w : Element} {n : Node}
    (hw : elementsById doc widgetNames id = .ok [w]) (hshown : n.Shown doc w) (hn : n.content.WellFormed)
    {found : List Element} (hfound : find doc w.content ["config"] = .ok found) (o : Json.Object) :
    setConfigPlan doc id (fun _ => o) =
      writeBlock doc w (found.find? (·.name == "config")) .first (configBlock o) := by
  have hblock : ∀ b ∈ found, ∃ m : Node, m.Shown doc b ∧ b.name ∈ ["config"] :=
    fun b hb => shown_of_mem_find hshown hn (by decide) hfound hb
  have hobject : ∃ old, objectIn doc found.head? = .ok old := by
    cases found with
    | nil => exact ⟨[], rfl⟩
    | cons b more =>
      obtain ⟨m, hm, -⟩ := hblock b List.mem_cons_self
      unfold objectIn
      simp only [List.head?_cons, hm.innerText, bind, Except.bind]
      split
      · exact ⟨_, rfl⟩
      · exact ⟨_, rfl⟩
  obtain ⟨old, hold⟩ := hobject
  have hname : ∀ b ∈ found, b.name = "config" := fun b hb => by
    obtain ⟨-, -, hmem⟩ := hblock b hb
    exact List.mem_singleton.mp hmem
  rw [find?_eq_head? hname]
  unfold setConfigPlan
  exact blockPlan_eq hw hfound (by rw [hold]; rfl)

theorem setGroupStylePlan_eq {doc : List Char} {id : String} {g : Element}
    (hg : elementsById doc ["group"] id = .ok [g]) {found : List Element}
    (hfound : find doc g.content ("style" :: widgetNames) = .ok found) (o : Json.Object) :
    setGroupStylePlan doc id o =
      writeBlock doc g (found.find? (·.name == "style")) .first (styleBlock o) := by
  have hfirst : elementById doc ["group"] id = .ok (some g) := by
    unfold elementById
    rw [hg]
    rfl
  unfold setGroupStylePlan
  simp only [hfirst, hfound, bind, Except.bind]
  cases found.find? (·.name == "style") <;> rfl

/-- The conditions under which an object is written safely into an element: no `<` is printed, neither in
the object nor in the tag of an element that has to be opened, and the object is read as it was printed. -/
structure Writable (e : Element) (o : Json.Object) (printed : List Char) : Prop where
  plain : '<' ∉ printed
  read : Json.readObject printed = .ok o
  values : e.selfClosing = true → ∀ a ∈ e.attrs, '<' ∉ a.value.toList

/-- **Objects that are written into a well-formed document read back**, as the configuration of the only
widget with an id or the style of the only group with it, if no `<` is printed. A style that is written over
must not hold elements of its own. -/
theorem islands_read_back {f : Forest} (hf : f.WellFormed) (id : String) (o : Json.Object) :
    (∀ w, elementsById f.chars widgetNames id = .ok [w] → Writable w o (Json.object o).pretty →
      ∃ doc', setConfig f.chars id (fun _ => o) = .ok doc' ∧
        IslandWritten f.chars doc' widgetNames id w ["config"] "config" o) ∧
    (∀ g, elementsById f.chars ["group"] id = .ok [g] → Writable g o (Json.object o).compact →
      (∀ found b, find f.chars g.content ("style" :: widgetNames) = .ok found →
        found.find? (·.name == "style") = some b →
          find f.chars b.content (searchedNames nodeNames) = .ok []) →
      ∃ doc', setGroupStyle f.chars id o = .ok doc' ∧
        IslandWritten f.chars doc' ["group"] id g ("style" :: widgetNames) "style" o) := by
  constructor
  · intro w hw hwritable
    have hnames : ∀ s ∈ searchedNames widgetNames, TagName s := by decide
    have hbody : '<' ∉ '\n' :: ((Json.object o).pretty ++ ['\n']) := by
      simpa using hwritable.plain
    have hread : Json.readObject (Text.trim ('\n' :: ((Json.object o).pretty ++ ['\n']))) = .ok o := by
      rw [trim_pretty]
      exact hwritable.read
    have hone := elementsById_wellFormed (fun s hs => (hnames s hs).searchable) hf id
    rw [hw] at hone
    obtain ⟨hreached, hanswers⟩ := List.mem_filter.mp
      (by rw [← Except.ok.inj hone]; exact List.mem_singleton.mpr rfl : w ∈ _)
    have hcontainer : containerNames.contains w.name ≠ true := by
      have hname := (Bool.and_eq_true_iff.mp hanswers).1
      simpa using not_container_of_mem_widgetNames w.name (by simpa using hname)
    obtain ⟨n, hn, hshown⟩ := exists_shown_of_reached hf hreached
    obtain ⟨found, doc', hfound, hcarry, hwritten⟩ := @islandWritten f hf widgetNames [] (by decide) hnames
      ["config"] (by decide) "config" (by decide) (by decide) (by decide) id w hw hwritable.values o _ hbody
      hread (fun h => absurd h hcontainer) .first
    refine ⟨doc', ?_, hwritten⟩
    unfold setConfig
    rw [setConfigPlan_eq hw hshown hn hfound, configBlock_eq]
    exact hcarry
  · intro g hg hwritable hinside
    have hread : Json.readObject (Text.trim (Json.object o).compact) = .ok o := by
      rw [trim_compact]
      exact hwritable.read
    obtain ⟨found, doc', hfound, hcarry, hwritten⟩ := @islandWritten f hf ["group"] widgetNames (by decide)
      (by decide) ("style" :: widgetNames) (by decide) "style" (by decide) (by decide) (by decide) id g hg
      hwritable.values o _ hwritable.plain hread (fun _ => hinside) .first
    refine ⟨doc', ?_, hwritten⟩
    unfold setGroupStyle
    rw [setGroupStylePlan_eq hg hfound, styleBlock_eq]
    exact hcarry

/-! ## An object in a group and in its widget -/

theorem meant_plainGroup :
    WrittenTag.meant ⟨"group".toList, [⟨[' '], "id".toList, [], [], ['g']⟩], []⟩ = [⟨"id", "g"⟩] := by
  have hvalue : Entity.decode ['g'] = ['g'] := by
    simp [Entity.decode_cons, Entity.decode_nil, Entity.read?, Entity.names, stripPrefix?]
  simp only [WrittenTag.meant, List.map_cons, List.map_nil, WrittenAttribute.meant, hvalue]
  decide

theorem elementsById_groupAround_kpi :
    elementsById (groupAround plainWidget).chars widgetNames "k" =
      .ok [⟨"kpi", 14, 26, [⟨"id", "k"⟩], .paired ⟨26, 26⟩ 32⟩] := by
  have hreached : (groupAround plainWidget).reached (searchedNames widgetNames) 0 =
      [⟨"group", 0, 14, WrittenTag.meant ⟨"group".toList, [⟨[' '], "id".toList, [], [], ['g']⟩], []⟩,
        .paired ⟨14, 32⟩ 40⟩, ⟨"kpi", 14, 26, plainWidget.meant, .paired ⟨26, 26⟩ 32⟩] := by
    rfl
  rw [elementsById_wellFormed (by decide) (by decide), hreached, meant_plainWidget, meant_plainGroup]
  rfl

theorem elementsById_groupAround_group :
    elementsById (groupAround plainWidget).chars ["group"] "g" =
      .ok [⟨"group", 0, 14, [⟨"id", "g"⟩], .paired ⟨14, 32⟩ 40⟩] := by
  have hreached : (groupAround plainWidget).reached (searchedNames ["group"]) 0 =
      [⟨"group", 0, 14, WrittenTag.meant ⟨"group".toList, [⟨[' '], "id".toList, [], [], ['g']⟩], []⟩,
        .paired ⟨14, 32⟩ 40⟩] := by
    rfl
  rw [elementsById_wellFormed (by decide) (by decide), hreached, meant_plainGroup]
  rfl

theorem find_groupAround_style :
    find (groupAround plainWidget).chars ⟨14, 32⟩ ("style" :: widgetNames) =
      .ok [⟨"kpi", 14, 26, [⟨"id", "k"⟩], .paired ⟨26, 26⟩ 32⟩] := by
  have hinside : Forest.outermost ("style" :: widgetNames) 14
      (.paired plainWidget .nil ⟨"kpi".toList, []⟩ .nil) =
        [⟨"kpi", 14, 26, plainWidget.meant, .paired ⟨26, 26⟩ 32⟩] := by
    rfl
  rw [← meant_plainWidget, ← hinside]
  exact @find_forest _ (by decide) (.paired plainWidget .nil ⟨"kpi".toList, []⟩ .nil) (by decide)
    "<group id=\"g\">".toList "</group>".toList

theorem find_groupAround_config :
    find (groupAround plainWidget).chars ⟨26, 26⟩ ["config"] = .ok [] := by
  exact @find_forest _ (by decide) .nil (by decide) "<group id=\"g\"><kpi id=\"k\">".toList
    "</kpi></group>".toList

/-- The member `a` of an object is read behind its colon. -/
theorem value_member (total : Nat) {unread text : List Char}
    (h : Json.skipBlanks unread = '"' :: 'a' :: '"' :: ':' :: text) :
    Json.value total [] ('\x7b' :: unread) = Json.value total [.members [] "a"] text := by
  have hkey : Json.memberKey total ('a' :: '"' :: ':' :: text) = .ok ("a", text) := by
    unfold Json.memberKey
    rw [Json.stringBody_plain (by decide) (by decide) (by decide), Json.stringBody]
    rfl
  have hopen : Json.skipBlanks ('\x7b' :: unread) = '\x7b' :: unread := rfl
  rw [Json.value_eq, hopen]
  simp only [h]
  show (Json.memberKey total ('a' :: '"' :: ':' :: text)).bind _ = _
  rw [hkey]
  rfl

theorem value_true (total : Nat) {unread rest : List Char}
    (hunread : Json.skipBlanks unread = "true".toList ++ rest) (hrest : Json.skipBlanks rest = ['\x7d']) :
    Json.value total [.members [] "a"] unread = .ok (.object [("a", .bool true)], []) := by
  have hword : Json.word total "rue".toList ("rue".toList ++ rest) = .ok rest := rfl
  rw [Json.value_eq, hunread]
  show (Json.word total "rue".toList ("rue".toList ++ rest)).bind _ = _
  rw [hword]
  show Json.close total _ _ rest = _
  rw [Json.close_eq, hrest]
  show Json.close total [] _ [] = _
  rw [Json.close_eq]
  rfl

theorem readObject_pretty_true :
    Json.readObject (Json.object [("a", .bool true)]).pretty = .ok [("a", .bool true)] := by
  have hprinted : (Json.object [("a", .bool true)]).pretty = "\x7b\n  \"a\": true\n\x7d".toList := by decide
  rw [hprinted]
  refine Json.readObject_eq_ok.mpr ⟨_, [], rfl, ?_, rfl⟩
  rw [@value_member _ _ " true\n\x7d".toList rfl]
  exact @value_true _ _ "\n\x7d".toList rfl rfl

theorem readObject_compact_true :
    Json.readObject (Json.object [("a", .bool true)]).compact = .ok [("a", .bool true)] := by
  have hprinted : (Json.object [("a", .bool true)]).compact = "\x7b\"a\":true\x7d".toList := by decide
  rw [hprinted]
  refine Json.readObject_eq_ok.mpr ⟨_, [], rfl, ?_, rfl⟩
  rw [@value_member _ _ "true\x7d".toList rfl]
  exact @value_true _ _ "\x7d".toList rfl rfl

/-- An object is read back from a new block of the widget, and from one of the group. -/
theorem islands_read_back_true :
    (groupAround plainWidget).WellFormed ∧
      (∃ doc', setConfig (groupAround plainWidget).chars "k" (fun _ => [("a", .bool true)]) = .ok doc' ∧
        IslandWritten (groupAround plainWidget).chars doc' widgetNames "k"
          ⟨"kpi", 14, 26, [⟨"id", "k"⟩], .paired ⟨26, 26⟩ 32⟩ ["config"] "config"
            [("a", .bool true)]) ∧
      ∃ doc', setGroupStyle (groupAround plainWidget).chars "g" [("a", .bool true)] = .ok doc' ∧
        IslandWritten (groupAround plainWidget).chars doc' ["group"] "g"
          ⟨"group", 0, 14, [⟨"id", "g"⟩], .paired ⟨14, 32⟩ 40⟩ ("style" :: widgetNames) "style"
            [("a", .bool true)] := by
  have hwell : (groupAround plainWidget).WellFormed := by decide
  refine ⟨hwell, ?_, ?_⟩
  · refine (islands_read_back hwell "k" _).1 _ elementsById_groupAround_kpi ⟨?_, readObject_pretty_true, ?_⟩
    · decide
    · exact fun hself => absurd hself (by decide)
  · refine (islands_read_back hwell "g" _).2 _ elementsById_groupAround_group
      ⟨?_, readObject_compact_true, ?_⟩ ?_
    · decide
    · exact fun hself => absurd hself (by decide)
    · -- the group has no style
      intro found b hfound hb
      obtain rfl := Except.ok.inj (hfound.symm.trans find_groupAround_style)
      exact absurd hb (by simp)

/-- A widget whose configuration holds a close tag. -/
def cutConfig : List Char :=
  "<group id=\"g\"><kpi id=\"k\">\n  <config>\n\x7b\n  \"a\": \"</config>\"\n\x7d\n</config></kpi></group>".toList

/-- A group whose style holds a close tag. -/
def cutStyle : List Char :=
  "<group id=\"g\">\n  <style>\x7b\"a\":\"</style>\"\x7d</style><kpi id=\"k\"></kpi></group>".toList

theorem setConfig_groupAround :
    setConfig (groupAround plainWidget).chars "k" (fun _ => [("a", .string "</config>")]) =
      .ok cutConfig := by
  have hplan : setConfigPlan (groupAround plainWidget).chars "k" (fun _ => [("a", .string "</config>")]) =
      .ok [⟨⟨26, 26⟩, "\n  <config>\n\x7b\n  \"a\": \"</config>\"\n\x7d\n</config>".toList⟩] := by
    unfold setConfigPlan
    rw [@blockPlan_eq _ _ _ _ _ _ _ _ (configBlock [("a", .string "</config>")])
      elementsById_groupAround_kpi find_groupAround_config rfl]
    decide
  unfold setConfig
  rw [hplan]
  exact Splice.carryOut_single "<group id=\"g\"><kpi id=\"k\">".toList [] "</kpi></group>".toList _

theorem setGroupStyle_groupAround :
    setGroupStyle (groupAround plainWidget).chars "g" [("a", .string "</style>")] = .ok cutStyle := by
  have hplan : setGroupStylePlan (groupAround plainWidget).chars "g" [("a", .string "</style>")] =
      .ok [⟨⟨14, 14⟩, "\n  <style>\x7b\"a\":\"</style>\"\x7d</style>".toList⟩] := by
    rw [setGroupStylePlan_eq elementsById_groupAround_group find_groupAround_style]
    decide
  unfold setGroupStyle
  rw [hplan]
  exact Splice.carryOut_single "<group id=\"g\">".toList [] "<kpi id=\"k\"></kpi></group>".toList _

set_option maxRecDepth 8000 in
/-- The search for the close tag of the configuration stops inside the string. -/
theorem find_cut_config :
    elementsById cutConfig
        widgetNames "k" = .ok [⟨"kpi", 14, 26, [⟨"id", "k"⟩], .paired ⟨26, 70⟩ 76⟩] ∧
      find cutConfig
        ⟨26, 70⟩ ["config"] = .ok [⟨"config", 29, 37, [], .paired ⟨37, 48⟩ 57⟩] := by
  have hnames : searchedNames widgetNames =
      ["dashboard", "row", "group", "column", "section", "kpi", "chart", "widget"] := by
    decide
  have hfind : find cutConfig
      ⟨0, 84⟩ (searchedNames widgetNames) =
        .ok [⟨"group", 0, 14, [⟨"id", "g"⟩], .paired ⟨14, 76⟩ 84⟩] := by
    rw [hnames]
    unfold cutConfig
    simp [find, Span.text, Span.cut?, splitBytes?, Option.bind, scan_cons, scan_nil, findClose_cons, comment?,
      opening?, closing?, named?, stripPrefix?, stripWord?, endsName, finish?, cutTag?, Option.filter_some,
      isTagBlank, OpenTag.ofBody, trimEnd, stripSuffix?, behindTag, cutAt?, dropEndWhile, List.dropWhile,
      isBlank, Attributes.read_cons, Attributes.read_nil, trimStart, Attribute.read?, List.takeWhile,
      Attribute.isNameChar, Attribute.assigned?, isPlainBlank, Attribute.value?, quoted?,
      Entity.decode_cons, Entity.decode_nil, Entity.read?, Entity.names, Char.utf8Size, Except.map]
  have hinner : find cutConfig
      ⟨14, 76⟩ (searchedNames widgetNames) =
        .ok [⟨"kpi", 14, 26, [⟨"id", "k"⟩], .paired ⟨26, 70⟩ 76⟩] := by
    rw [hnames]
    unfold cutConfig
    simp [find, Span.text, Span.cut?, splitBytes?, Option.bind, scan_cons, scan_nil, findClose_cons, comment?,
      opening?, closing?, named?, stripPrefix?, stripWord?, endsName, finish?, cutTag?, Option.filter_some,
      isTagBlank, OpenTag.ofBody, trimEnd, stripSuffix?, behindTag, cutAt?, dropEndWhile, List.dropWhile,
      isBlank, Attributes.read_cons, Attributes.read_nil, trimStart, Attribute.read?, List.takeWhile,
      Attribute.isNameChar, Attribute.assigned?, isPlainBlank, Attribute.value?, quoted?,
      Entity.decode_cons, Entity.decode_nil, Entity.read?, Entity.names, Char.utf8Size, Except.map]
  have hsize : size cutConfig = 84 := by decide
  constructor
  · unfold elementsById findById
    rw [hsize, walk_eq, hfind]
    simp only [Except.bind]
    have hentered : Element.entered? ⟨"group", 0, 14, [⟨"id", "g"⟩], .paired ⟨14, 76⟩ 84⟩ =
        some ⟨14, 76⟩ := by
      decide
    rw [exceptMapM_cons, walkFrom, hentered]
    simp only [walk_eq, hinner]
    rfl
  · unfold cutConfig
    simp [find, Span.text, Span.cut?, splitBytes?, Option.bind, scan_cons, scan_nil, findClose_cons, comment?,
      opening?, closing?, named?, stripPrefix?, stripWord?, endsName, finish?, cutTag?, Option.filter_some,
      isTagBlank, OpenTag.ofBody, trimEnd, stripSuffix?, behindTag, cutAt?, dropEndWhile,
      Attributes.read_nil, Char.utf8Size, Except.map]

set_option maxRecDepth 8000 in
/-- The search for the close tag of the style stops inside the string. -/
theorem find_cut_style :
    elementsById cutStyle ["group"] "g" =
        .ok [⟨"group", 0, 14, [⟨"id", "g"⟩], .paired ⟨14, 66⟩ 74⟩] ∧
      find cutStyle
          ⟨14, 66⟩ ("style" :: widgetNames) =
        .ok [⟨"style", 17, 24, [], .paired ⟨24, 30⟩ 38⟩,
          ⟨"kpi", 48, 60, [⟨"id", "k"⟩], .paired ⟨60, 60⟩ 66⟩] := by
  have hnames : searchedNames ["group"] = ["dashboard", "row", "group", "column", "section"] := by
    decide
  have hfind : find cutStyle ⟨0, 74⟩
      (searchedNames ["group"]) =
        .ok [⟨"group", 0, 14, [⟨"id", "g"⟩], .paired ⟨14, 66⟩ 74⟩] := by
    rw [hnames]
    unfold cutStyle
    simp [find, Span.text, Span.cut?, splitBytes?, Option.bind, scan_cons, scan_nil, findClose_cons, comment?,
      opening?, closing?, named?, stripPrefix?, stripWord?, endsName, finish?, cutTag?, Option.filter_some,
      isTagBlank, OpenTag.ofBody, trimEnd, stripSuffix?, behindTag, cutAt?, dropEndWhile, List.dropWhile,
      isBlank, Attributes.read_cons, Attributes.read_nil, trimStart, Attribute.read?, List.takeWhile,
      Attribute.isNameChar, Attribute.assigned?, isPlainBlank, Attribute.value?, quoted?,
      Entity.decode_cons, Entity.decode_nil, Entity.read?, Entity.names, Char.utf8Size, Except.map]
  have hinner : find cutStyle ⟨14, 66⟩
      (searchedNames ["group"]) = .ok [] := by
    rw [hnames]
    unfold cutStyle
    simp [find, Span.text, Span.cut?, splitBytes?, Option.bind, scan_cons, scan_nil, comment?,
      opening?, named?, stripPrefix?, stripWord?, Char.utf8Size]
  have hsize : size cutStyle = 74 := by decide
  constructor
  · unfold elementsById findById
    rw [hsize, walk_eq, hfind]
    simp only [Except.bind]
    have hentered : Element.entered? ⟨"group", 0, 14, [⟨"id", "g"⟩], .paired ⟨14, 66⟩ 74⟩ =
        some ⟨14, 66⟩ := by
      decide
    rw [exceptMapM_cons, walkFrom, hentered]
    simp only [walk_eq, hinner]
    rfl
  · unfold widgetNames cutStyle
    simp [find, Span.text, Span.cut?, splitBytes?, Option.bind, scan_cons, scan_nil, findClose_cons, comment?,
      opening?, closing?, named?, stripPrefix?, stripWord?, endsName, finish?, cutTag?, Option.filter_some,
      isTagBlank, OpenTag.ofBody, trimEnd, stripSuffix?, behindTag, cutAt?, dropEndWhile, List.dropWhile,
      isBlank, Attributes.read_cons, Attributes.read_nil, trimStart, Attribute.read?, List.takeWhile,
      Attribute.isNameChar, Attribute.assigned?, isPlainBlank, Attribute.value?, quoted?,
      Entity.decode_cons, Entity.decode_nil, Entity.read?, Entity.names, Char.utf8Size, Except.map]

/-- No object is read from a text that ends inside a string. -/
theorem readObject_open {unread text : List Char}
    (hunread : Json.skipBlanks unread = '"' :: 'a' :: '"' :: ':' :: text)
    (htext : Json.skipBlanks text = ['"']) (o : Json.Object) : Json.readObject ('\x7b' :: unread) ≠ .ok o := by
  intro hread
  obtain ⟨body, rest, hbody, hvalue, -⟩ := Json.readObject_eq_ok.mp hread
  obtain rfl := (List.cons.inj hbody).2
  rw [value_member _ hunread, Json.value_eq, htext] at hvalue
  have hstring : ∀ total, Json.stringBody total [] = Json.flawAtEnd total .endInString := fun total => by
    rw [Json.stringBody]
  change (Json.stringBody _ []).bind _ = _ at hvalue
  rw [hstring] at hvalue
  exact absurd hvalue (by simp [Json.flawAtEnd, Except.bind])

/-- A block with a body that is not read is not written as asked. -/
theorem not_islandWritten {doc doc' : List Char} {names searched : List String} {id name : String}
    {e e' : Element} {found : List Element} {b : Element} {body : List Char} {o : Json.Object}
    (hone : elementsById doc' names id = .ok [e']) (hfound : find doc' e'.content searched = .ok found)
    (hb : found.find? (·.name == name) = some b) (hbody : b.innerText doc' = .ok body)
    (hread : Json.readObject (Text.trim body) ≠ .ok o) :
    ¬IslandWritten doc doc' names id e searched name o := by
  intro h
  obtain ⟨e₁, found₁, b₁, body₁, hone₁, hfound₁, hb₁, hbody₁, hread₁⟩ := h.readsBack
  obtain ⟨rfl, -⟩ := List.cons.inj (Except.ok.inj (hone.symm.trans hone₁))
  obtain rfl := Except.ok.inj (hfound.symm.trans hfound₁)
  obtain rfl := Option.some.inj (hb.symm.trans hb₁)
  obtain rfl := Except.ok.inj (hbody.symm.trans hbody₁)
  exact hread hread₁

/-- **A close tag in a string cuts the object off**, in a configuration and in a style. -/
theorem islands_cut_off :
    (groupAround plainWidget).WellFormed ∧
      (∃ doc', setConfig (groupAround plainWidget).chars "k" (fun _ => [("a", .string "</config>")]) =
          .ok doc' ∧
        ¬IslandWritten (groupAround plainWidget).chars doc' widgetNames "k"
          ⟨"kpi", 14, 26, [⟨"id", "k"⟩], .paired ⟨26, 26⟩ 32⟩ ["config"] "config"
            [("a", .string "</config>")]) ∧
      ∃ doc', setGroupStyle (groupAround plainWidget).chars "g" [("a", .string "</style>")] = .ok doc' ∧
        ¬IslandWritten (groupAround plainWidget).chars doc' ["group"] "g"
          ⟨"group", 0, 14, [⟨"id", "g"⟩], .paired ⟨14, 32⟩ 40⟩ ("style" :: widgetNames) "style"
            [("a", .string "</style>")] := by
  refine ⟨by decide, ⟨_, setConfig_groupAround, ?_⟩, _, setGroupStyle_groupAround, ?_⟩
  · obtain ⟨hone, hfound⟩ := find_cut_config
    refine @not_islandWritten _ _ _ _ _ _ _ _ _ _ "\n\x7b\n  \"a\": \"".toList _ hone hfound rfl (by decide) ?_
    have htrim : Text.trim "\n\x7b\n  \"a\": \"".toList = "\x7b\n  \"a\": \"".toList := by decide
    rw [htrim]
    exact @readObject_open _ " \"".toList rfl rfl _
  · obtain ⟨hone, hfound⟩ := find_cut_style
    refine @not_islandWritten _ _ _ _ _ _ _ _ _ _ "\x7b\"a\":\"".toList _ hone hfound rfl (by decide) ?_
    have htrim : Text.trim "\x7b\"a\":\"".toList = "\x7b\"a\":\"".toList := by decide
    rw [htrim]
    exact @readObject_open _ "\"".toList rfl rfl _

end DashboardMarkup.Edit
