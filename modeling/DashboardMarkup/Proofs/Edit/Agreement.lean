import DashboardMarkup.Proofs.Edit.Island
import DashboardMarkup.Proofs.Edit.Lone
import DashboardMarkup.Proofs.Edit.Reach
import DashboardMarkup.Proofs.Query.Bindings

/-!
# The blocks of a widget, for the editor and for the parser

The parser looks for all kinds of blocks at once, so that what stands inside a block is none. The editor looks
for the blocks of one name alone, and so it also finds what stands inside another block.

* `find?_outermost`: the two find the same first block of a name if no block before it holds one.
* `blocks_agree`: the editor then writes over the first block of that name that the parser sees, or adds one
  that it sees, and all other blocks stay as they are.
* `tokens_inside_config`: otherwise the editor may write into another block.
-/

namespace DashboardMarkup.Edit

open Markup Text

/-! ## Two searches -/

section

variable {names : List String} {name : String}

/-- No other name of a list is the same in another case of letters. -/
def Alone (names : List String) (name : String) : Prop :=
  name ∈ names ∧ ∀ s ∈ names, lower s.toList = lower name.toList → s = name

instance (names : List String) (name : String) : Decidable (Alone names name) :=
  inferInstanceAs (Decidable (_ ∧ _))

/-- A tag of one of some names, and of one of them alone. -/
theorem nameIn?_singleton (h : Alone names name) (tag : WrittenTag) :
    tag.nameIn? [name] = if tag.nameIn? names = some name then some name else none := by
  by_cases hsame : lower tag.name = lower name.toList
  · have hone : tag.nameIn? [name] = some name := by simp [WrittenTag.nameIn?, hsame]
    have hall : tag.nameIn? names = some name := by
      cases hin : tag.nameIn? names with
      | none => exact absurd (List.find?_eq_none.mp hin name h.1) (by simpa using hsame)
      | some s =>
        have hs := @List.find?_some _ (fun s : String => lower tag.name == lower s.toList) _ _ hin
        rw [h.2 s (List.mem_of_find?_eq_some hin) ((beq_iff_eq.mp hs).symm.trans hsame)]
    rw [hone, if_pos hall]
  · have hone : tag.nameIn? [name] = none := by simp [WrittenTag.nameIn?, hsame]
    have hall : tag.nameIn? names ≠ some name := fun hin =>
      hsame (beq_iff_eq.mp (@List.find?_some _ (fun s : String => lower tag.name == lower s.toList) _ _ hin))
    rw [hone, if_neg hall]

theorem map_name_outermost (names : List String) (f : Forest) (start : Nat) :
    (f.outermost names start).map Element.name = (f.nodes names).map Node.name := by
  induction f generalizing start with
  | nil => rfl
  | text t rest ih => exact ih _
  | comment t rest ih => exact ih _
  | single tag gap rest ih =>
    rw [Forest.outermost, Forest.nodes, List.map_append, List.map_append, ih]
    cases tag.nameIn? names <;> rfl
  | paired tag children close rest ihc ih =>
    rw [Forest.outermost, Forest.nodes, List.map_append, List.map_append, ih]
    cases tag.nameIn? names with
    | none => rw [ihc]
    | some other => rfl

/-- **The first element of a name**, of those that are outermost among elements of several names, is the first
one of all if none before it holds one. -/
theorem find?_outermost (h : Alone names name) (f : Forest) (start : Nat)
    (hapart : ∀ n ∈ (f.nodes names).takeWhile (·.name != name), n.content.nodes [name] = []) :
    (f.outermost names start).find? (·.name == name) = (f.outermost [name] start).head? := by
  induction f generalizing start with
  | nil => rfl
  | text t rest ih => exact ih _ hapart
  | comment t rest ih => exact ih _ hapart
  | single tag gap rest ih =>
    rw [Forest.nodes] at hapart
    rw [Forest.outermost, Forest.outermost, nameIn?_singleton h]
    cases hin : tag.nameIn? names with
    | none =>
      rw [hin] at hapart
      simpa using ih _ hapart
    | some other =>
      rw [hin] at hapart
      by_cases hother : other = name
      · simp [hother]
      · have hrest := ih (start + size tag.text + 1 + size gap + 1) fun n hn => hapart n (by simp [hother, hn])
        simpa [hother] using hrest
  | paired tag children close rest ihc ih =>
    rw [Forest.nodes] at hapart
    rw [Forest.outermost, Forest.outermost, nameIn?_singleton h]
    cases hin : tag.nameIn? names with
    | none =>
      rw [hin] at hapart
      change ∀ n ∈ (children.nodes names ++ rest.nodes names).takeWhile (·.name != name),
        n.content.nodes [name] = [] at hapart
      have hchildren := ihc (start + size tag.text + 1) fun n hn => hapart n ?_
      · cases hfirst : (children.outermost names (start + size tag.text + 1)).find? (·.name == name) with
        | some e =>
          rw [hfirst] at hchildren
          simp [List.find?_append, hfirst, ← hchildren]
        | none =>
          have hnone : ∀ n ∈ children.nodes names, (n.name != name) = true := by
            intro n hn
            have hmem : n.name ∈ (children.outermost names (start + size tag.text + 1)).map Element.name := by
              rw [map_name_outermost]
              exact List.mem_map_of_mem hn
            obtain ⟨e, he, heq⟩ := List.mem_map.mp hmem
            simpa [← heq] using List.find?_eq_none.mp hfirst e he
          have hrest := ih (start + size tag.text + 1 + size children.chars + size close.text)
            fun n hn => hapart n (by rw [List.takeWhile_append_of_pos hnone]; exact List.mem_append_right _ hn)
          rw [hfirst] at hchildren
          simpa [List.find?_append, hfirst, List.head?_append, ← hchildren] using hrest
      · rw [List.takeWhile_append]
        split
        · exact List.mem_append_left _ ((List.takeWhile_sublist _).subset hn)
        · exact hn
    | some other =>
      rw [hin] at hapart
      by_cases hother : other = name
      · simp [hother]
      · -- nothing of the name stands in the element, so that both searches go on behind it
        have hnone : children.nodes [name] = [] := hapart ⟨other, tag.meant, children⟩ (by simp [hother])
        have hrest := ih (start + size tag.text + 1 + size children.chars + size close.text)
          fun n hn => hapart n (by simp [hother, hn])
        simpa [hother, outermost_eq_nil hnone] using hrest

theorem takeWhile_shown {doc : List Char} {ns : List Node} {es : List Element}
    (h : List.Forall₂ (Node.Shown doc) ns es) (p : String → Bool) :
    List.Forall₂ (Node.Shown doc) (ns.takeWhile fun n => p n.name) (es.takeWhile fun e => p e.name) := by
  induction h with
  | nil => exact .nil
  | @cons n e ns es hn _ ih =>
    simp only [List.takeWhile_cons, hn.name]
    cases p n.name with
    | true => exact .cons hn ih
    | false => exact .nil

/-- **The two searches agree in an element** if no block before the first of the name holds one of that name. -/
theorem exists_find_head? {doc : List Char} {n : Node} {e : Element} (hshown : n.Shown doc e)
    (hn : n.content.WellFormed) (hnames : ∀ s ∈ names, Searchable s) (h : Alone names name)
    {blocks : List Element} (hblocks : find doc e.content names = .ok blocks)
    (hapart : ∀ b ∈ blocks.takeWhile (·.name != name), find doc b.content [name] = .ok []) :
    ∃ found, find doc e.content [name] = .ok found ∧ found.head? = blocks.find? (·.name == name) := by
  obtain ⟨before, behind, hdoc, hspan⟩ := hshown.content
  have hone : ∀ s ∈ [name], Searchable s := fun s hs => by
    obtain rfl := List.mem_singleton.mp hs
    exact hnames s h.1
  have hall := find_forest hnames hn before behind
  have hfound := find_forest hone hn before behind
  rw [← hdoc, ← hspan] at hall hfound
  obtain rfl := Except.ok.inj (hblocks.symm.trans hall)
  refine ⟨_, hfound, (find?_outermost h n.content _ fun m hm => ?_).symm⟩
  -- what a block shows holds nothing of the name if a search in the block finds nothing
  obtain ⟨b, hb, hbshown⟩ := exists_of_mem_left (takeWhile_shown (shown_outermost names hdoc) (· != name)) hm
  have hmwell := wellFormed_of_mem_nodes hn ((List.takeWhile_sublist _).subset hm)
  obtain ⟨inside, hinside, hnodes⟩ := hbshown.find hmwell hone
  rw [hapart b hb] at hinside
  obtain rfl := Except.ok.inj hinside
  exact List.forall₂_nil_right_iff.mp hnodes

end

/-! ## The edits of blocks -/

/-- An edit of a block of a widget. -/
inductive BlockEdit
  | tokens (value : String)
  | source (fields : Attributes)
  | config (update : Json.Object → Json.Object)

namespace BlockEdit

/-- The name of the block. -/
def name : BlockEdit → String
  | tokens _ => "styling"
  | source _ => "datasource"
  | config _ => "config"

/-- Where a new block goes. -/
def place : BlockEdit → Place
  | tokens _ => .last
  | source _ | config _ => .first

/-- Edits the first widget with an id. -/
def run (doc : List Char) (id : String) : BlockEdit → Edited (List Char)
  | tokens value => setTokens doc id value
  | source fields => setDataSource doc id fields
  | config update => setConfig doc id update

/-- The changes that are made to the attributes of a block. -/
def changes : BlockEdit → List Attributes.Change
  | tokens value => [.set "tw" value, .drop "class"]
  | source fields => DataSource.changes (fields.filter fun a => trimmed a.value != "")
  | config _ => []

/-- What a block says after an edit of the block that was there before, or of none. -/
def Says (doc doc' : List Char) (old : Option Element) (b : Element) : BlockEdit → Prop
  | config update => ∃ o, objectIn doc old = .ok o ∧
      b.innerText doc' = .ok ('\n' :: ((Json.object (update o)).pretty ++ ['\n']))
  | edit => b.attrs = (attrsOf old).applyAll edit.changes

/-- What is written can be read: names are names of attributes, and no `<` stands in a value or an object. -/
def Plain (doc : List Char) (old : Option Element) : BlockEdit → Prop
  | config update => ∀ o, objectIn doc old = .ok o → '<' ∉ (Json.object (update o)).pretty
  | edit => ∀ a ∈ (attrsOf old).applyAll edit.changes, AttributeName a.name ∧ '<' ∉ a.value.toList

end BlockEdit

/-- A block that an edit leaves as it was: it has the same name, the same attributes and the same text. -/
def SameBlock (doc doc' : List Char) (b b' : Element) : Prop :=
  b'.name = b.name ∧ b'.attrs = b.attrs ∧ ∃ text, b.innerText doc = .ok text ∧ b'.innerText doc' = .ok text

/-- **What an edit of a block should do to the blocks of a widget that the parser sees.** The only widget with
the id is still the only one. In it the parser sees the block that was written, in the place of the first one
of the name, which has been written over, or beside the blocks that were there if there was none; and it sees
all other blocks as they were. -/
structure BlockWritten (doc doc' : List Char) (id : String) (edit : BlockEdit) (blocks : List Element) : Prop where
  seen : ∃ w left right left' right' b, elementsById doc' widgetNames id = .ok [w] ∧
    find doc' w.content blockNames = .ok (left' ++ b :: right') ∧
    blocks = left ++ (blocks.find? (·.name == edit.name)).toList ++ right ∧
    b.name = edit.name ∧ edit.Says doc doc' (blocks.find? (·.name == edit.name)) b ∧
    List.Forall₂ (SameBlock doc doc') left left' ∧ List.Forall₂ (SameBlock doc doc') right right'
  overwrites : ∀ old, blocks.find? (·.name == edit.name) = some old →
    ∃ text, Splice.apply doc ⟨old.span, text⟩ = .ok doc'

/-! ## What is written -/

/-- The tree of a block, as the edits of blocks need it. -/
structure IsBlock (name : String) (block : Forest) (n : Node) : Prop where
  wellFormed : block.WellFormed
  trim : Text.trim block.chars = block.chars
  nodes : block.nodes blockNames = [n]
  reached : block.reachedNodes (searchedNames widgetNames) = []
  named : n.name = name

theorem isBlock_loneTag {name : String} (hname : name = "styling" ∨ name = "datasource") {attrs : Attributes}
    (h : ∀ a ∈ attrs, AttributeName a.name ∧ '<' ∉ a.value.toList) :
    IsBlock name (loneTag name attrs) ⟨name, attrs, .nil⟩ := by
  have hwell : TagName name → (loneTag name attrs).WellFormed := fun hname =>
    wellFormed_loneTag hname (fun a ha => (h a ha).1) fun a ha => (h a ha).2
  rcases hname with rfl | rfl
  · exact ⟨hwell (by decide), trim_loneTag _ _, nodes_loneTag _ (by decide), reachedNodes_loneTag _ (by decide), rfl⟩
  · exact ⟨hwell (by decide), trim_loneTag _ _, nodes_loneTag _ (by decide), reachedNodes_loneTag _ (by decide), rfl⟩

theorem isBlock_island {body : List Char} (hbody : '<' ∉ body) :
    IsBlock "config" (island "config" body) ⟨"config", [], .text body .nil⟩ :=
  ⟨wellFormed_island (by decide) hbody, trim_island _ _, nodes_island (by decide) body,
    reachedNodes_island (by decide) body, rfl⟩

/-- An object is looked for in a block of a well-formed document without a fault. -/
theorem exists_objectIn {doc : List Char} {blocks : List Element} {ns : List Node}
    (h : List.Forall₂ (Node.Shown doc) ns blocks) (name : String) :
    ∃ o, objectIn doc (blocks.find? (·.name == name)) = .ok o := by
  cases hfind : blocks.find? (·.name == name) with
  | none => exact ⟨[], rfl⟩
  | some b =>
    obtain ⟨n, -, hn⟩ := exists_of_mem_left (R := flip (Node.Shown doc)) (List.Forall₂.flip h)
      (List.mem_of_find?_eq_some hfind)
    unfold objectIn
    simp only [hn.innerText, bind, Except.bind]
    split
    · exact ⟨_, rfl⟩
    · exact ⟨_, rfl⟩

/-- **What an edit writes**: a block that says what it should. -/
theorem exists_block {doc : List Char} {id : String} {w : Element} {blocks found : List Element} {ns : List Node}
    (hw : elementsById doc widgetNames id = .ok [w]) (hshown : List.Forall₂ (Node.Shown doc) ns blocks)
    {edit : BlockEdit} (hfound : find doc w.content [edit.name] = .ok found)
    (hfirst : found.head? = blocks.find? (·.name == edit.name))
    (hplain : edit.Plain doc (blocks.find? (·.name == edit.name))) :
    ∃ block n, IsBlock edit.name block n ∧
      edit.run doc id = Splice.carryOut doc
        (writeBlock doc w (blocks.find? (·.name == edit.name)) edit.place block.chars) ∧
      ∀ doc' b, n.Shown doc' b → edit.Says doc doc' (blocks.find? (·.name == edit.name)) b := by
  cases edit with
  | tokens value =>
    refine ⟨_, _, isBlock_loneTag (.inl rfl) hplain, ?_, fun doc' b hb => hb.attrs⟩
    rw [chars_loneTag, ← hfirst]
    exact congrArg (Splice.carryOut doc) (blockPlan_eq hw hfound rfl)
  | source fields =>
    refine ⟨_, _, isBlock_loneTag (.inr rfl) hplain, ?_, fun doc' b hb => hb.attrs⟩
    rw [chars_loneTag, ← hfirst]
    exact congrArg (Splice.carryOut doc) (blockPlan_eq hw hfound rfl)
  | config update =>
    obtain ⟨o, ho⟩ := exists_objectIn hshown "config"
    have hbody : '<' ∉ '\n' :: ((Json.object (update o)).pretty ++ ['\n']) := by
      simpa using hplain o ho
    refine ⟨_, _, isBlock_island hbody, ?_, fun doc' b hb => ⟨o, ho, ?_⟩⟩
    · rw [← configBlock_eq, ← hfirst]
      refine congrArg (Splice.carryOut doc) (blockPlan_eq hw hfound ?_)
      rw [hfirst]
      show Except.bind (objectIn doc (blocks.find? (·.name == "config"))) _ = _
      rw [ho]
      rfl
    · rw [hb.innerText]
      simp [Forest.chars]

/-! ## Both sides -/

/-- **The blocks of a rewritten element**: the new one in the place of the first of the name, or beside all. -/
theorem Rewritten.exists_parts {searched : List String} {name : String} {block old x y : Forest}
    (h : Rewritten searched name block old x y) {n : Node} (hblock : block.nodes searched = [n]) :
    ∃ (left right : List Node) (first : Option Node), (∀ m ∈ left, m.name ≠ name) ∧
      (∀ m ∈ first, m.name = name) ∧ (first = none → ∀ m ∈ right, m.name ≠ name) ∧
      (inner x).nodes searched = left ++ (first.toList ++ right) ∧
      (inner y).nodes searched = left ++ n :: right := by
  cases h with
  | @replaced tag close c old m hclear hleft hnodes hmname =>
    refine ⟨c.left searched, c.right searched, some m, hleft, fun k hk => Option.some.inj hk ▸ hmname,
      fun hnone => absurd hnone (by simp), ?_, ?_⟩
    · simp [inner, Context.nodes_fill hclear, hnodes]
    · simp [inner, Context.nodes_fill hclear, hblock]
  | @first tag close children line hothers hline =>
    refine ⟨[], children.nodes searched, none, by simp, by simp, fun _ => hothers, by simp [inner], ?_⟩
    simp [inner, Forest.nodes, Forest.nodes_append, hblock]
  | @last tag close children line hothers hline =>
    refine ⟨children.nodes searched, [], none, hothers, by simp, by simp, by simp [inner], ?_⟩
    simp [inner, Forest.nodes, Forest.nodes_append, hblock]
  | @opened tag gap tagName line ending htagName hlower hvalues hline hending =>
    refine ⟨[], [], none, by simp, by simp, by simp, by simp [inner, Forest.nodes], ?_⟩
    simp [inner, Forest.nodes, Forest.nodes_append, hblock]

/-- An element in a document shows its tag and what is in it. -/
theorem shown_of_spells {doc before behind : List Char} {names : List String} {x : Forest} {e : Element}
    (h : x.Spells names (size before) e) (hdoc : doc = before ++ (x.chars ++ behind)) :
    Node.Shown doc ⟨e.name, e.attrs, inner x⟩ e := by
  cases h with
  | @single tag gap name hin =>
    have hdoc' : doc = (before ++ (tag.text ++ ('/' :: gap ++ ['>']))) ++ behind := by
      rw [hdoc]
      simp [Forest.chars]
    rw [size_single]
    exact shown_single name _ _ hdoc'
  | @paired tag children close name hin =>
    have hdoc' : doc = (before ++ (tag.text ++ ['>'])) ++ (children.chars ++ (close.text ++ behind)) := by
      rw [hdoc]
      simp [Forest.chars]
    rw [size_open]
    exact shown_paired name _ _ _ hdoc'

theorem wellFormed_inner {names : List String} {start : Nat} {x : Forest} {e : Element}
    (h : x.Spells names start e) (hx : x.WellFormed) : (inner x).WellFormed := by
  cases h with
  | single gap hin => exact ⟨trivial, trivial⟩
  | paired children close hin =>
    obtain ⟨⟨-, -, -, hnested, -⟩, -, hplain, -⟩ := hx
    exact ⟨hnested, hplain⟩

theorem mem_reachedNodes_of_spells {names : List String} {start : Nat} {x : Forest} {e : Element}
    (h : x.Spells names start e) : ⟨e.name, e.attrs, inner x⟩ ∈ x.reachedNodes names := by
  cases h with
  | single gap hin => simp [Forest.reachedNodes, hin, inner]
  | paired children close hin => simp [Forest.reachedNodes, hin, inner]

/-- **The only widget with an id is still the only one** when a block of it has been written. -/
theorem exists_widget {c : Context} {searched : List String} {name id : String} {block old x y : Forest}
    {n : Node} {w : Element} (hadmitted : c.Admitted (searchedNames widgetNames))
    (hspells : x.Spells (searchedNames widgetNames) (size c.before) w)
    (h : Rewritten searched name block old x y) (hblock : block.nodes searched = [n]) (hname : n.name = name)
    (hnew : block.reachedNodes (searchedNames widgetNames) = []) (hwidget : w.name ∈ widgetNames)
    (hf : (c.fill x).WellFormed) (hwell : (c.fill y).WellFormed)
    (hw : elementsById (c.fill x).chars widgetNames id = .ok [w]) :
    ∃ w', elementsById (c.fill y).chars widgetNames id = .ok [w'] ∧
      Node.Shown (c.fill y).chars ⟨w.name, w.attrs, inner y⟩ w' := by
  have hsearchable := searchable_of_mem_widgetNames
  have hone := Except.ok.inj ((elementsById_wellFormed hsearchable hf id).symm.trans hw)
  have hanswers : w.answers widgetNames id = true :=
    (List.mem_filter.mp (by rw [hone]; exact List.mem_singleton.mpr rfl : w ∈ _)).2
  have hold : containerNames.contains w.name = true → old.reachedNodes (searchedNames widgetNames) = [] :=
    fun hcontainer => absurd (List.contains_iff_mem.mp hcontainer) (not_container_of_mem_widgetNames w.name hwidget)
  obtain ⟨e, hy, hename, heattrs⟩ := h.spells hspells
  have htarget := mem_reachedNodes_fill hadmitted (mem_reachedNodes_of_spells hy)
  rw [hename, heattrs] at htarget
  obtain ⟨w', hw', hshown⟩ := exists_of_mem_left (shown_reached_whole _ _) htarget
  obtain ⟨_, _, _, _, -, -, hall⟩ := reached_of_rewritten (c := c) h hspells hblock hname hnew hold
  refine ⟨w', ?_, hshown⟩
  rw [elementsById_wellFormed hsearchable hwell]
  refine congrArg Except.ok (exists_filter_answers (hall.imp fun r r' hr => ⟨hr.1, hr.2.1⟩) hone hw' ?_)
  rw [answers_of_eq hshown.name hshown.attrs]
  exact hanswers

/-- Elements that show the parts of a list of nodes. -/
theorem exists_of_shown_append {doc : List Char} {as bs : List Node} {es : List Element}
    (h : List.Forall₂ (Node.Shown doc) (as ++ bs) es) :
    ∃ fs gs, es = fs ++ gs ∧ List.Forall₂ (Node.Shown doc) as fs ∧ List.Forall₂ (Node.Shown doc) bs gs := by
  induction as generalizing es with
  | nil => exact ⟨[], es, rfl, .nil, h⟩
  | cons a as ih =>
    cases h with
    | cons ha h =>
      obtain ⟨fs, gs, rfl, hfs, hgs⟩ := ih h
      exact ⟨_ :: fs, gs, rfl, .cons ha hfs, hgs⟩

/-- Blocks that show the same nodes are the same. -/
theorem sameBlocks_of_shown {doc doc' : List Char} {ns : List Node} {es es' : List Element}
    (h : List.Forall₂ (Node.Shown doc) ns es) (h' : List.Forall₂ (Node.Shown doc') ns es') :
    List.Forall₂ (SameBlock doc doc') es es' := by
  refine forall₂_through (R := Eq) ?_ h (List.forall₂_same.mpr fun _ _ => rfl) h'
  rintro n b _ b' hb rfl hb'
  exact ⟨hb'.name.trans hb.name.symm, hb'.attrs.trans hb.attrs.symm, _, hb.innerText, hb'.innerText⟩

/-- What stands before and behind the first block of a name. -/
theorem exists_shown_parts {doc : List Char} {left right : List Node} {first : Option Node} {es : List Element}
    {name : String} (h : List.Forall₂ (Node.Shown doc) (left ++ (first.toList ++ right)) es)
    (hleft : ∀ m ∈ left, m.name ≠ name) (hfirst : ∀ m ∈ first, m.name = name)
    (hright : first = none → ∀ m ∈ right, m.name ≠ name) :
    ∃ before behind, es = before ++ (es.find? (·.name == name)).toList ++ behind ∧
      List.Forall₂ (Node.Shown doc) left before ∧ List.Forall₂ (Node.Shown doc) right behind := by
  have hnone : ∀ {ns : List Node} {es : List Element}, List.Forall₂ (Node.Shown doc) ns es →
      (∀ m ∈ ns, m.name ≠ name) → es.find? (·.name == name) = none := by
    intro ns es hshown hns
    refine List.find?_eq_none.mpr fun e he heq => ?_
    obtain ⟨m, hm, hmshown⟩ := exists_of_mem_left (R := flip (Node.Shown doc)) (List.Forall₂.flip hshown) he
    exact hns m hm (hmshown.name.symm.trans (beq_iff_eq.mp heq))
  obtain ⟨before, rest, rfl, hbefore, hrest⟩ := exists_of_shown_append h
  obtain ⟨one, behind, rfl, hone, hbehind⟩ := exists_of_shown_append hrest
  refine ⟨before, behind, ?_, hbefore, hbehind⟩
  cases first with
  | none =>
    obtain rfl := List.forall₂_nil_left_iff.mp hone
    simp [hnone hbefore hleft, hnone hbehind (hright rfl)]
  | some m =>
    obtain ⟨o, more, hm, hmore, rfl⟩ := List.forall₂_cons_left_iff.mp hone
    obtain rfl := List.forall₂_nil_left_iff.mp hmore
    have hname : o.name = name := hm.name.trans (hfirst m rfl)
    simp [List.find?_append, hnone hbefore hleft, hname]

/-- **The editor and the parser agree on the block that belongs to a widget**, the only one with its id in a
well-formed document, if no block before the first one of the name holds an element of the name. -/
theorem blocks_agree {f : Forest} (hf : f.WellFormed) {id : String} {w : Element}
    (hw : elementsById f.chars widgetNames id = .ok [w]) {blocks : List Element}
    (hblocks : find f.chars w.content blockNames = .ok blocks) {edit : BlockEdit}
    (hapart : ∀ b ∈ blocks.takeWhile (·.name != edit.name), find f.chars b.content [edit.name] = .ok [])
    (hplain : edit.Plain f.chars (blocks.find? (·.name == edit.name)))
    (hself : w.selfClosing = true → ∀ a ∈ w.attrs, '<' ∉ a.value.toList) :
    ∃ doc', edit.run f.chars id = .ok doc' ∧ BlockWritten f.chars doc' id edit blocks := by
  have hsearchable : ∀ s ∈ blockNames, Searchable s := by decide
  have halone : Alone blockNames edit.name := by
    cases edit with
    | tokens value => exact (by decide : Alone blockNames "styling")
    | source fields => exact (by decide : Alone blockNames "datasource")
    | config update => exact (by decide : Alone blockNames "config")
  -- what the two searches find in the widget
  obtain ⟨hreached, n, hone, hshown⟩ := exists_node hf hw
  have hmem : n ∈ f.nodes widgetNames := (List.mem_filter.mp
    (show n ∈ (f.nodes widgetNames).filter (·.carries id) by rw [hone]; exact List.mem_singleton.mpr rfl)).1
  have hnwell := wellFormed_of_mem_nodes hf hmem
  obtain ⟨found, hfound, hfirst⟩ := exists_find_head? hshown hnwell hsearchable halone hblocks hapart
  obtain ⟨all, hall, hblocksShown⟩ := hshown.find hnwell hsearchable
  obtain rfl := Except.ok.inj (hblocks.symm.trans hall)
  obtain ⟨block, b, hblock, hrun, hsays⟩ := exists_block hw hblocksShown hfound hfirst hplain
  -- the tree is changed in one place
  obtain ⟨blocks', c, old, x, y, hblocks', rfl, hadmitted, hspells, hrewritten, hwell, -, hcarry⟩ :=
    exists_rewritten hf (show ∀ s ∈ searchedNames widgetNames, TagName s by decide) hreached hsearchable edit.name
      hblock.wellFormed hblock.trim hself edit.place
  obtain rfl := Except.ok.inj (hblocks.symm.trans hblocks')
  refine ⟨_, hrun.trans hcarry, ?_, ?_⟩
  · obtain ⟨w', hw', hshown'⟩ := exists_widget hadmitted hspells hrewritten hblock.nodes hblock.named hblock.reached
      (hshown.name ▸ name_of_mem_nodes hmem) hf hwell hw
    have hx := shown_of_spells hspells (Context.chars_fill c x)
    have hxwell := wellFormed_inner hspells (Context.wellFormed_fill hf).1
    have hywell : (inner y).WellFormed := by
      obtain ⟨e', hspells', -, -⟩ := hrewritten.spells hspells
      exact wellFormed_inner hspells' (Context.wellFormed_fill hwell).1
    obtain ⟨_, hbefore, hbeforeShown⟩ := hx.find hxwell hsearchable
    obtain rfl := Except.ok.inj (hblocks.symm.trans hbefore)
    obtain ⟨after, hafter, hafterShown⟩ := hshown'.find hywell hsearchable
    -- their parts show the same nodes, but for the block
    obtain ⟨left, right, first, hleft, hfirst, hright, hxnodes, hynodes⟩ := hrewritten.exists_parts hblock.nodes
    rw [hxnodes] at hbeforeShown
    rw [hynodes] at hafterShown
    obtain ⟨before, behind, hblocks, hbefore, hbehind⟩ := exists_shown_parts hbeforeShown hleft hfirst hright
    obtain ⟨before', rest, rfl, hbefore', hrest⟩ := exists_of_shown_append hafterShown
    obtain ⟨b', behind', hb', hbehind', rfl⟩ := List.forall₂_cons_left_iff.mp hrest
    exact ⟨w', before, behind, before', behind', b', hw', hafter, hblocks, hb'.name.trans hblock.named, hsays _ _ hb',
      sameBlocks_of_shown hbefore hbefore', sameBlocks_of_shown hbehind hbehind'⟩
  · intro o ho
    refine ⟨block.chars, ?_⟩
    rw [ho] at hcarry
    have hsingle : Splice.carryOut (c.fill x).chars (.ok [⟨o.span, block.chars⟩]) =
        Splice.apply (c.fill x).chars ⟨o.span, block.chars⟩ := by
      unfold Splice.carryOut Splice.applyAll
      simp only [Splice.ordered, List.mergeSort_singleton, List.foldlM_cons, List.foldlM_nil, bind_pure]
    exact hsingle.symm.trans hcarry

/-! ## A block in the configuration of a widget -/

/-- A widget. -/
def widgetAround (children : Forest) : Forest :=
  .paired plainWidget children ⟨"kpi".toList, []⟩ .nil

/-- A configuration with a block in a string. -/
def configAround (block : Forest) : Forest :=
  .paired ⟨"config".toList, [], []⟩
    (.text "\x7b\"a\":\"".toList (block.append (.text "\"\x7d".toList .nil))) ⟨"config".toList, []⟩ .nil

/-- Styling tokens of no kind. -/
def noTokens : Forest :=
  .single ⟨"styling".toList, [], []⟩ [] .nil

theorem chars_widgetAround (children : Forest) :
    (widgetAround children).chars = "<kpi id=\"k\">".toList ++ (children.chars ++ "</kpi>".toList) := by
  simp [widgetAround, Forest.chars, plainWidget, WrittenTag.text, WrittenTag.body, WrittenAttribute.text,
    WrittenClose.text]

theorem elementsById_widgetAround {children : Forest} (h : (widgetAround children).WellFormed) :
    elementsById (widgetAround children).chars widgetNames "k" =
      .ok [⟨"kpi", 0, 12, [⟨"id", "k"⟩], .paired ⟨12, 12 + size children.chars⟩
        (12 + size children.chars + 6)⟩] := by
  have hreached : (widgetAround children).reached (searchedNames widgetNames) 0 =
      [⟨"kpi", 0, 12, plainWidget.meant, .paired ⟨12, 12 + size children.chars⟩
        (12 + size children.chars + 6)⟩] := by
    rfl
  rw [elementsById_wellFormed (by decide) h, hreached, meant_plainWidget]
  rfl

theorem find_widgetAround {children : Forest} (h : children.WellFormed) {names : List String}
    (hnames : ∀ s ∈ names, Searchable s) :
    find (widgetAround children).chars ⟨12, 12 + size children.chars⟩ names =
      .ok (children.outermost names 12) := by
  rw [chars_widgetAround]
  exact find_forest hnames h "<kpi id=\"k\">".toList "</kpi>".toList

/-- Tokens before such a configuration. -/
def tokensBefore : Forest :=
  (loneTag "styling" [⟨"tw", "a"⟩]).append (configAround noTokens)

/-- Tokens that stand before such a configuration are written over. -/
theorem blocks_agree_before_config :
    (widgetAround tokensBefore).WellFormed ∧
      ∃ blocks doc', find (widgetAround tokensBefore).chars ⟨12, 65⟩ blockNames = .ok blocks ∧
        blocks.map Element.name = ["styling", "config"] ∧
        (BlockEdit.tokens "b").run (widgetAround tokensBefore).chars "k" = .ok doc' ∧
        BlockWritten (widgetAround tokensBefore).chars doc' "k" (.tokens "b") blocks := by
  have hwell : (widgetAround tokensBefore).WellFormed := by decide
  have hone := elementsById_widgetAround hwell
  have hblocks := @find_widgetAround tokensBefore (by decide) blockNames (by decide)
  have hapart : ∀ b ∈ (tokensBefore.outermost blockNames 12).takeWhile (·.name != "styling"),
      find (widgetAround tokensBefore).chars b.content ["styling"] = .ok [] := fun b hb => nomatch hb
  have hattrs : attrsOf ((tokensBefore.outermost blockNames 12).find? (·.name == "styling")) = [⟨"tw", "a"⟩] :=
    meant_rendered "styling" [⟨"tw", "a"⟩] [' ']
  have hplain : ∀ a ∈ (attrsOf ((tokensBefore.outermost blockNames 12).find? (·.name == "styling"))).applyAll
      (BlockEdit.tokens "b").changes, AttributeName a.name ∧ '<' ∉ a.value.toList := by
    rw [hattrs]
    decide
  obtain ⟨doc', hrun, hwritten⟩ :=
    @blocks_agree _ hwell "k" _ hone _ hblocks (.tokens "b") hapart hplain fun hself => absurd hself (by decide)
  exact ⟨hwell, _, doc', hblocks, by decide, hrun, hwritten⟩

/-- **Tokens are written into a configuration** where a string in it holds a block of the name, and the parser
sees no block of that name. -/
theorem tokens_inside_config :
    (widgetAround (configAround noTokens)).WellFormed ∧
      (widgetAround (configAround noTokens)).chars =
        "<kpi id=\"k\"><config>\x7b\"a\":\"<styling/>\"\x7d</config></kpi>".toList ∧
      elementsById (widgetAround (configAround noTokens)).chars widgetNames "k" =
        .ok [⟨"kpi", 0, 12, [⟨"id", "k"⟩], .paired ⟨12, 47⟩ 53⟩] ∧
      ∃ blocks doc', find (widgetAround (configAround noTokens)).chars ⟨12, 47⟩ blockNames = .ok blocks ∧
        setTokens (widgetAround (configAround noTokens)).chars "k" "b" = .ok doc' ∧
        ¬BlockWritten (widgetAround (configAround noTokens)).chars doc' "k" (.tokens "b") blocks := by
  have hwell : (widgetAround (configAround noTokens)).WellFormed := by decide
  have hone := elementsById_widgetAround hwell
  have hblocks := @find_widgetAround (configAround noTokens) (by decide) blockNames (by decide)
  have hfound := @find_widgetAround (configAround noTokens) (by decide) ["styling"] (by decide)
  refine ⟨hwell, by decide, hone, _, (widgetAround (configAround (loneTag "styling" [⟨"tw", "b"⟩]))).chars, hblocks,
    ?_, ?_⟩
  · have hplan : setTokensPlan (widgetAround (configAround noTokens)).chars "k" "b" =
        .ok [⟨⟨26, 36⟩, "<styling tw=\"b\" />".toList⟩] :=
      (blockPlan_eq hone hfound rfl).trans (by decide)
    unfold setTokens
    rw [hplan]
    exact Splice.carryOut_single "<kpi id=\"k\"><config>\x7b\"a\":\"".toList "<styling/>".toList
      "\"\x7d</config></kpi>".toList "<styling tw=\"b\" />".toList
  · rintro ⟨⟨w, left, right, left', right', b, hw, hfind, -, hname, -⟩, -⟩
    have hw' := @elementsById_widgetAround (configAround (loneTag "styling" [⟨"tw", "b"⟩])) (by decide)
    obtain ⟨rfl, -⟩ := List.cons.inj (Except.ok.inj (hw.symm.trans hw'))
    have hfind' := @find_widgetAround (configAround (loneTag "styling" [⟨"tw", "b"⟩])) (by decide) blockNames (by decide)
    have hnames : ((configAround (loneTag "styling" [⟨"tw", "b"⟩])).outermost blockNames 12).map Element.name =
        ["config"] := by decide
    rw [← Except.ok.inj (hfind.symm.trans hfind'), List.map_append, List.map_cons, hname] at hnames
    have hmem : "styling" ∈ left'.map Element.name ++ "styling" :: right'.map Element.name := by simp
    exact absurd (hnames ▸ hmem) (by decide)

end DashboardMarkup.Edit
