import DashboardMarkup.Edit.Change
import DashboardMarkup.Proofs.Edit.Context
import DashboardMarkup.Proofs.Edit.Growth
import DashboardMarkup.Proofs.Edit.ReadBack

/-!
# Writing a block of an element

Three edits write a block of an element: over the block that is there, or as a new child. `Rewritten` says
what becomes of the element in the tree; there is one case for a block that is written over, one for each end
of an element where a new one is put, and one for an element that closes itself and has to be opened.

* `exists_rewritten`: on a well-formed document, the edit is such a change in one place of the tree.
* `Rewritten.block`: a search for the block finds it there.
* `Rewritten.reached`: the walk reaches what it did before.
-/

namespace DashboardMarkup

open Text (size size_append size_cons size_nil)

/-- One splice in the middle of a document. -/
theorem Splice.carryOut_single (a b c text : List Char) :
    Splice.carryOut (a ++ (b ++ c)) (.ok [⟨⟨size a, size a + size b⟩, text⟩]) = .ok (a ++ (text ++ c)) := by
  unfold Splice.carryOut Splice.applyAll
  simp only [Splice.ordered, List.mergeSort_singleton, List.foldlM_cons, List.foldlM_nil, apply_append]
  rfl

namespace Markup

open Text

/-- Nothing is found in an empty span. -/
theorem find_empty (doc : List Char) (offset : Nat) (names : List String) :
    find doc ⟨offset, offset⟩ names = .ok [] := by
  unfold find
  simp only
  rw [if_neg (by omega)]

end Markup

namespace Edit

open Markup Text

/-- The splices that write a block of an element. -/
def writeBlock (doc : List Char) (e : Element) (block : Option Element) (place : Place)
    (text : List Char) : Except Fault (List Splice) :=
  match block with
  | some b => .ok [⟨b.span, text⟩]
  | none => insertChild doc e place text

/-- The plan for a block of a widget. -/
theorem blockPlan_eq {doc : List Char} {id name : String} {place : Place}
    {write : Option Element → Except Fault (List Char)} {w : Element} {more found : List Element}
    {text : List Char} (hw : elementsById doc widgetNames id = .ok (w :: more))
    (hfound : find doc w.content [name] = .ok found) (hwrite : write found.head? = .ok text) :
    blockPlan doc id name place write = writeBlock doc w found.head? place text := by
  have hfirst : elementById doc widgetNames id = .ok (some w) := by
    unfold elementById
    rw [hw]
    rfl
  have hblock : findFirst doc w.content name = .ok found.head? := by
    unfold findFirst
    rw [hfound]
    rfl
  unfold blockPlan
  simp only [hfirst, hblock, hwrite, bind, Except.bind]
  cases found.head? <;> rfl

theorem find?_eq_head? {es : List Element} {name : String} (h : ∀ b ∈ es, b.name = name) :
    es.find? (·.name == name) = es.head? := by
  cases es with
  | nil => rfl
  | cons b es => exact List.find?_cons_of_pos (beq_iff_eq.mpr (h b List.mem_cons_self))

/-- A text of blanks only. -/
def Blank (text : List Char) : Prop :=
  ∀ c ∈ text, isBlank c = true

theorem Blank.lt_not_mem {text : List Char} (h : Blank text) : '<' ∉ text :=
  fun hmem => absurd (h '<' hmem) (by decide)

/-- **What becomes of an element in which a block is written**, if blocks are looked for among elements of
some names and have one of these. `old` is what is written over. -/
inductive Rewritten (searched : List String) (name : String) (block : Forest) :
    Forest → Forest → Forest → Prop
  /-- The first block is written over. -/
  | replaced (tag : WrittenTag) (close : WrittenClose) {c : Context} {old : Forest} {n : Node} :
      c.Clear searched → (∀ m ∈ c.left searched, m.name ≠ name) → old.nodes searched = [n] → n.name = name →
      Rewritten searched name block old (.paired tag (c.fill old) close .nil)
        (.paired tag (c.fill block) close .nil)
  /-- A new one is put before all children. -/
  | first (tag : WrittenTag) (close : WrittenClose) {children : Forest} {line : List Char} :
      (∀ m ∈ children.nodes searched, m.name ≠ name) → Blank line →
      Rewritten searched name block .nil (.paired tag children close .nil)
        (.paired tag (.text line (block.append children)) close .nil)
  /-- A new one is put behind them. -/
  | last (tag : WrittenTag) (close : WrittenClose) {children : Forest} {line : List Char} :
      (∀ m ∈ children.nodes searched, m.name ≠ name) → Blank line →
      Rewritten searched name block .nil (.paired tag children close .nil)
        (.paired tag (children.append (.text line block)) close .nil)
  /-- An element that closes itself gets a close tag. -/
  | opened {tag : WrittenTag} (gap : List Char) {tagName : String} {line ending : List Char} :
      TagName tagName → lower tag.name = lower tagName.toList → (∀ a ∈ tag.meant, '<' ∉ a.value.toList) →
      Blank line → Blank ending →
      Rewritten searched name block .nil (.single tag gap .nil)
        (.paired (WrittenTag.rendered tagName tag.meant [])
          (.text line (block.append (.text ending .nil))) ⟨tagName.toList, []⟩ .nil)

theorem isBlank_of_isLineBlank {c : Char} (h : isLineBlank c = true) : isBlank c = true := by
  simp only [isLineBlank, Bool.or_eq_true, beq_iff_eq] at h
  rcases h with rfl | rfl <;> decide

/-- The line that a new child begins with, and the one that its parent ends with. -/
theorem blank_line (before : List Char) :
    Blank ('\n' :: (indentOf before ++ [' ', ' '])) ∧ Blank ('\n' :: indentOf before) := by
  obtain ⟨-, -, hindent⟩ := append_indentOf before
  have hblank : ∀ c ∈ indentOf before, isBlank c = true := fun c hc => isBlank_of_isLineBlank (hindent c hc)
  constructor
  · intro c hc
    simp only [List.mem_cons, List.mem_append, List.not_mem_nil, or_false] at hc
    rcases hc with rfl | hc | rfl | rfl
    · decide
    · exact hblank c hc
    · decide
    · decide
  · intro c hc
    rcases List.mem_cons.mp hc with rfl | hc
    · decide
    · exact hblank c hc

/-- What `insertChild` knows of the line before an element. -/
theorem indentAt_append (before behind : List Char) :
    indentAt (before ++ behind) (size before) = .ok (indentOf before) := by
  have hcut := Span.cut?_append [] before behind
  rw [List.nil_append, size_nil, Nat.zero_add] at hcut
  unfold indentAt Span.text
  rw [hcut]
  rfl

section Steps

variable {names : List String} {before behind : List Char} {e : Element} {block : Forest}

/-- A new child of an element that closes itself. -/
theorem writeBlock_single {tag : WrittenTag} {gap : List Char}
    (h : (Forest.single tag gap .nil).Spells names (size before) e) (place : Place)
    (htrim : Text.trim block.chars = block.chars) :
    Splice.carryOut (before ++ ((Forest.single tag gap .nil).chars ++ behind))
        (writeBlock (before ++ ((Forest.single tag gap .nil).chars ++ behind)) e none place block.chars) =
      .ok (before ++ ((Forest.paired (WrittenTag.rendered e.name tag.meant [])
        (.text ('\n' :: (indentOf before ++ [' ', ' ']))
          (block.append (.text ('\n' :: indentOf before) .nil))) ⟨e.name.toList, []⟩ .nil).chars ++
            behind)) := by
  have hspan := h.span
  cases h with
  | @single _ _ name hin =>
    have hindent := indentAt_append before ((Forest.single tag gap .nil).chars ++ behind)
    have hplan : writeBlock (before ++ ((Forest.single tag gap .nil).chars ++ behind))
        ⟨name, size before, size before + size tag.text + 1 + size gap + 1, tag.meant, .selfClosing⟩
        none place block.chars =
          .ok [⟨⟨size before, size before + size (Forest.single tag gap .nil).chars⟩,
            renderOpen name { attrs := tag.meant, selfClosing := false } ++
              (('\n' :: (indentOf before ++ ' ' :: ' ' :: block.chars)) ++
                '\n' :: (indentOf before ++ renderClose name))⟩] := by
      unfold writeBlock insertChild
      simp only [hindent, hspan, htrim]
      rfl
    rw [hplan, Splice.carryOut_single, renderOpen_paired]
    simp [Forest.chars, Forest.chars_append, WrittenClose.text, renderClose]

/-- A new child before all others. -/
theorem writeBlock_first {tag : WrittenTag} {children : Forest} {close : WrittenClose}
    (h : (Forest.paired tag children close .nil).Spells names (size before) e)
    (htrim : Text.trim block.chars = block.chars) :
    Splice.carryOut (before ++ ((Forest.paired tag children close .nil).chars ++ behind))
        (writeBlock (before ++ ((Forest.paired tag children close .nil).chars ++ behind)) e none .first
          block.chars) =
      .ok (before ++ ((Forest.paired tag (.text ('\n' :: (indentOf before ++ [' ', ' ']))
        (block.append children)) close .nil).chars ++ behind)) := by
  cases h with
  | @paired _ _ _ name hin =>
    have hindent := indentAt_append before ((Forest.paired tag children close .nil).chars ++ behind)
    have hplan : writeBlock (before ++ ((Forest.paired tag children close .nil).chars ++ behind))
        ⟨name, size before, size before + size tag.text + 1, tag.meant,
          .paired ⟨size before + size tag.text + 1, size before + size tag.text + 1 + size children.chars⟩
            (size before + size tag.text + 1 + size children.chars + size close.text)⟩
        none .first block.chars =
          .ok [⟨⟨size (before ++ (tag.text ++ ['>'])), size (before ++ (tag.text ++ ['>'])) + size []⟩,
            '\n' :: (indentOf before ++ ' ' :: ' ' :: block.chars)⟩] := by
      unfold writeBlock insertChild
      simp only [hindent, htrim, size_open, size_nil, Nat.add_zero]
      rfl
    have hdoc : before ++ ((Forest.paired tag children close .nil).chars ++ behind) =
        (before ++ (tag.text ++ ['>'])) ++ ([] ++ (children.chars ++ (close.text ++ behind))) := by
      simp [Forest.chars]
    rw [hplan, hdoc, Splice.carryOut_single]
    simp [Forest.chars, Forest.chars_append]

/-- A new child behind all others. -/
theorem writeBlock_last {tag : WrittenTag} {children : Forest} {close : WrittenClose}
    (h : (Forest.paired tag children close .nil).Spells names (size before) e)
    (htrim : Text.trim block.chars = block.chars) :
    Splice.carryOut (before ++ ((Forest.paired tag children close .nil).chars ++ behind))
        (writeBlock (before ++ ((Forest.paired tag children close .nil).chars ++ behind)) e none .last
          block.chars) =
      .ok (before ++ ((Forest.paired tag (children.append
        (.text ('\n' :: (indentOf before ++ [' ', ' '])) block)) close .nil).chars ++ behind)) := by
  cases h with
  | @paired _ _ _ name hin =>
    have hindent := indentAt_append before ((Forest.paired tag children close .nil).chars ++ behind)
    have hplan : writeBlock (before ++ ((Forest.paired tag children close .nil).chars ++ behind))
        ⟨name, size before, size before + size tag.text + 1, tag.meant,
          .paired ⟨size before + size tag.text + 1, size before + size tag.text + 1 + size children.chars⟩
            (size before + size tag.text + 1 + size children.chars + size close.text)⟩
        none .last block.chars =
          .ok [⟨⟨size (before ++ (tag.text ++ ['>']) ++ children.chars),
              size (before ++ (tag.text ++ ['>']) ++ children.chars) + size []⟩,
            '\n' :: (indentOf before ++ ' ' :: ' ' :: block.chars)⟩] := by
      unfold writeBlock insertChild
      simp only [hindent, htrim, size_append _ children.chars, size_open, size_nil, Nat.add_zero]
      rfl
    have hdoc : before ++ ((Forest.paired tag children close .nil).chars ++ behind) =
        (before ++ (tag.text ++ ['>']) ++ children.chars) ++ ([] ++ (close.text ++ behind)) := by
      simp [Forest.chars]
    rw [hplan, hdoc, Splice.carryOut_single]
    simp [Forest.chars, Forest.chars_append]

/-- A block that is there is written over. -/
theorem writeBlock_over {tag : WrittenTag} {close : WrittenClose} {c : Context} {u : Forest} {b : Element}
    {searched : List String} (place : Place)
    (hb : u.Spells searched (size (before ++ (tag.text ++ ['>'])) + size c.before) b) :
    Splice.carryOut (before ++ ((Forest.paired tag (c.fill u) close .nil).chars ++ behind))
        (writeBlock (before ++ ((Forest.paired tag (c.fill u) close .nil).chars ++ behind)) e (some b) place
          block.chars) =
      .ok (before ++ ((Forest.paired tag (c.fill block) close .nil).chars ++ behind)) := by
  have hspan := hb.span
  have hdoc : before ++ ((Forest.paired tag (c.fill u) close .nil).chars ++ behind) =
      (before ++ (tag.text ++ ['>']) ++ c.before) ++ (u.chars ++ (c.behind ++ (close.text ++ behind))) := by
    simp [Forest.chars, Context.chars_fill]
  unfold writeBlock
  simp only
  rw [hdoc, hspan, ← size_append, Splice.carryOut_single]
  simp [Forest.chars, Context.chars_fill]

end Steps

/-! ## The change of the tree -/

/-- An element of a tree, as a search for its name sees it, has one node. -/
theorem nodes_of_spells {names : List String} {start : Nat} {x : Forest} {e : Element}
    (h : x.Spells names start e) : ∃ n, x.nodes names = [n] ∧ n.name = e.name ∧ n.attrs = e.attrs ∧
      ∀ other : List String, (∀ s ∈ other, lower s.toList ≠ lower e.name.toList) →
        x.reachedNodes other = n.content.reachedNodes other := by
  have hnone : ∀ {tag : WrittenTag} {name : String}, tag.nameIn? names = some name →
      ∀ other : List String, (∀ s ∈ other, lower s.toList ≠ lower name.toList) →
        tag.nameIn? other = none := by
    intro tag name hin other hother
    have hlower := @List.find?_some _ (fun name : String => lower tag.name == lower name.toList) _ _ hin
    refine List.find?_eq_none.mpr fun s hs hsame => hother s hs ?_
    rw [← beq_iff_eq.mp hlower, ← beq_iff_eq.mp hsame]
  cases h with
  | @single tag gap name hin =>
    refine ⟨⟨name, tag.meant, .nil⟩, ?_, rfl, rfl, fun other hother => ?_⟩
    · simp only [Forest.nodes, hin, List.append_nil]
    · simp only [Forest.reachedNodes, hnone hin other hother, Option.toList_none, List.map_nil,
        List.append_nil]
  | @paired tag children close name hin =>
    refine ⟨⟨name, tag.meant, children⟩, ?_, rfl, rfl, fun other hother => ?_⟩
    · simp only [Forest.nodes, hin, List.append_nil]
    · simp only [Forest.reachedNodes, hnone hin other hother, Option.toList_none, List.map_nil,
        List.nil_append, List.append_nil, admits_of_none (hnone hin other hother), if_true]

/-- Elements that lack a name show nodes that lack it. -/
theorem ne_name_of_shown {doc : List Char} {name : String} {ns : List Node} {es : List Element}
    (h : List.Forall₂ (Node.Shown doc) ns es) (hes : ∀ e ∈ es, e.name ≠ name) :
    ∀ n ∈ ns, n.name ≠ name := by
  induction h with
  | nil => exact fun n hn => absurd hn List.not_mem_nil
  | @cons n e ns es hn _ ih =>
    intro m hm
    rcases List.mem_cons.mp hm with rfl | hm
    · rw [← hn.name]
      exact hes e List.mem_cons_self
    · exact ih (fun e he => hes e (List.mem_cons_of_mem _ he)) m hm

/-- What a search finds before a place has the nodes before the place. -/
theorem left_shown {doc before behind : List Char} {searched : List String} {c : Context} {x : Forest}
    {n : Node} {as bs : List Element} {b : Element}
    (hdoc : doc = before ++ ((c.fill x).chars ++ behind)) (hc : c.Clear searched)
    (hlength : (c.left searched).length = as.length) (hx : x.nodes searched = [n])
    (hfound : (c.fill x).outermost searched (size before) = as ++ b :: bs) :
    List.Forall₂ (Node.Shown doc) (c.left searched) as ∧ n.Shown doc b := by
  have hshown := shown_outermost searched hdoc
  rw [hfound, Context.nodes_fill hc, hx] at hshown
  have htake := List.forall₂_take (c.left searched).length hshown
  have hdrop := List.forall₂_drop (c.left searched).length hshown
  rw [List.take_left, hlength, List.take_left] at htake
  rw [List.drop_left, hlength, List.drop_left] at hdrop
  cases hdrop with
  | cons hn _ => exact ⟨htake, hn⟩

/-- The new tree is well-formed, too. -/
theorem wellFormed_rewritten {searched : List String} {name : String} {block old x y : Forest}
    (hx : x.WellFormed) (hblock : block.WellFormed) (h : Rewritten searched name block old x y) :
    y.WellFormed := by
  cases h with
  | @replaced tag close c old m hclear hleft hnodes hmname =>
    obtain ⟨⟨htag, hclose, hsame, hnested, hrest⟩, hone, hplain, hbehind⟩ := hx
    have hchildren := (Context.wellFormed_fill ⟨hnested, hplain⟩).2 block hblock
    exact ⟨⟨htag, hclose, hsame, hchildren.nested, hrest⟩, hone, hchildren.plain, hbehind⟩
  | @first tag close children line hnone hline =>
    obtain ⟨⟨htag, hclose, hsame, hnested, hrest⟩, hone, hplain, hbehind⟩ := hx
    have hchildren := Forest.wellFormed_append.mpr ⟨hblock, ⟨hnested, hplain⟩⟩
    exact ⟨⟨htag, hclose, hsame, ⟨hline.lt_not_mem, hchildren.nested⟩, hrest⟩, hone, hchildren.plain, hbehind⟩
  | @last tag close children line hnone hline =>
    obtain ⟨⟨htag, hclose, hsame, hnested, hrest⟩, hone, hplain, hbehind⟩ := hx
    have hnew : (Forest.text line block).WellFormed := ⟨⟨hline.lt_not_mem, hblock.nested⟩, hblock.plain⟩
    have hchildren := Forest.wellFormed_append.mpr ⟨⟨hnested, hplain⟩, hnew⟩
    exact ⟨⟨htag, hclose, hsame, hchildren.nested, hrest⟩, hone, hchildren.plain, hbehind⟩
  | @opened tag gap tagName line ending htagName hlower hvalues hline hending =>
    have hreadable := @readable_rendered tagName tag.meant [] htagName.1 htagName.2
      (attributeName_of_readable hx.nested.1) (by simp)
    have hclose : WrittenClose.Readable ⟨tagName.toList, []⟩ := ⟨htagName.2, by simp⟩
    have hnew : (Forest.text ending .nil).WellFormed := ⟨⟨hending.lt_not_mem, trivial⟩, trivial⟩
    have hchildren := Forest.wellFormed_append.mpr ⟨hblock, hnew⟩
    exact ⟨⟨hreadable, hclose, rfl, ⟨hline.lt_not_mem, hchildren.nested⟩, trivial⟩,
      plain_rendered hvalues tagName [], hchildren.plain, trivial⟩

/-- What the search for a block finds in an element, and what is written over. -/
def Replaces (doc : List Char) (found : List Element) (name : String) (old : Forest) : Prop :=
  old = .nil ∨ ∃ (b : Element) (n : Node), found.find? (·.name == name) = some b ∧ n.Shown doc b ∧
    n.content.WellFormed ∧ ∀ other : List String, (∀ s ∈ other, lower s.toList ≠ lower name.toList) →
      old.reachedNodes other = n.content.reachedNodes other

/-- The block of an element that has a close tag. -/
theorem exists_rewritten_paired {before behind : List Char} {tag : WrittenTag} {children : Forest}
    {close : WrittenClose} (hwell : (Forest.paired tag children close .nil).WellFormed)
    {names : List String} {e : Element}
    (he : (Forest.paired tag children close .nil).Spells names (size before) e) {searched : List String}
    (hsearched : ∀ s ∈ searched, Searchable s) (name : String) {block : Forest}
    (htrim : Text.trim block.chars = block.chars) (place : Place) :
    ∃ (found : List Element) (old y : Forest),
      find (before ++ ((Forest.paired tag children close .nil).chars ++ behind)) e.content searched =
        .ok found ∧
      Rewritten searched name block old (.paired tag children close .nil) y ∧
      Replaces (before ++ ((Forest.paired tag children close .nil).chars ++ behind)) found name old ∧
      Splice.carryOut (before ++ ((Forest.paired tag children close .nil).chars ++ behind))
        (writeBlock (before ++ ((Forest.paired tag children close .nil).chars ++ behind)) e
          (found.find? (·.name == name)) place block.chars) = .ok (before ++ (y.chars ++ behind)) := by
  obtain ⟨⟨-, -, -, hnested, -⟩, -, hplain, -⟩ := hwell
  have hline := (blank_line before).1
  have hdoc : before ++ ((Forest.paired tag children close .nil).chars ++ behind) =
      (before ++ (tag.text ++ ['>'])) ++ (children.chars ++ (close.text ++ behind)) := by
    simp [Forest.chars]
  have hcontent : e.content = ⟨size (before ++ (tag.text ++ ['>'])),
      size (before ++ (tag.text ++ ['>'])) + size children.chars⟩ := by
    cases he with
    | paired _ _ hin =>
      rw [← size_open]
      rfl
  have hfind := find_forest hsearched ⟨hnested, hplain⟩ (before ++ (tag.text ++ ['>']))
    (close.text ++ behind)
  rw [← hdoc, ← hcontent] at hfind
  have hshown := shown_outermost searched hdoc
  cases hblock : (children.outermost searched (size (before ++ (tag.text ++ ['>'])))).find?
      (·.name == name) with
  | none =>
    have hnone : ∀ m ∈ children.nodes searched, m.name ≠ name := by
      refine ne_name_of_shown hshown fun e he hname => ?_
      exact List.find?_eq_none.mp hblock e he (beq_iff_eq.mpr hname)
    cases place with
    | first =>
      refine ⟨_, _, _, hfind, .first tag close hnone hline, Or.inl rfl, ?_⟩
      rw [hblock]
      exact writeBlock_first he htrim
    | last =>
      refine ⟨_, _, _, hfind, .last tag close hnone hline, Or.inl rfl, ?_⟩
      rw [hblock]
      exact writeBlock_last he htrim
  | some b =>
    obtain ⟨hname, as, bs, hsplit, hfirst⟩ := List.find?_eq_some_iff_append.mp hblock
    obtain ⟨c, old, rfl, hb, hclear, hlength⟩ := exists_context_of_outermost hsplit
    obtain ⟨n, hn, hnname, -, hother⟩ := nodes_of_spells hb
    obtain ⟨hleft, hbshown⟩ := left_shown hdoc hclear hlength hn hsplit
    have hbname : b.name = name := beq_iff_eq.mp hname
    refine ⟨_, old, _, hfind, .replaced tag close hclear ?_ hn (hnname.trans hbname),
      Or.inr ⟨b, n, hblock, hbshown, ?_, ?_⟩, ?_⟩
    · refine ne_name_of_shown hleft fun e he hname => ?_
      have := hfirst e he
      simp [hname] at this
    · refine @wellFormed_of_mem_nodes searched _ (Context.wellFormed_fill ⟨hnested, hplain⟩).1 n ?_
      rw [hn]
      exact List.mem_singleton.mpr rfl
    · rw [← hbname]
      exact hother
    · rw [hblock]
      exact writeBlock_over place hb

/-- **An edit that writes a block of a well-formed document changes the tree in one place.** -/
theorem exists_rewritten {f : Forest} (hf : f.WellFormed) {names : List String}
    (hnames : ∀ s ∈ names, TagName s) {e : Element} (he : e ∈ f.reached names 0) {searched : List String}
    (hsearched : ∀ s ∈ searched, Searchable s) (name : String) {block : Forest}
    (hblock : block.WellFormed) (htrim : Text.trim block.chars = block.chars)
    (hvalues : e.selfClosing = true → ∀ a ∈ e.attrs, '<' ∉ a.value.toList) (place : Place) :
    ∃ (found : List Element) (c : Context) (old x y : Forest),
      find f.chars e.content searched = .ok found ∧ f = c.fill x ∧ c.Admitted names ∧
      x.Spells names (size c.before) e ∧ Rewritten searched name block old x y ∧ (c.fill y).WellFormed ∧
      Replaces f.chars found name old ∧
      Splice.carryOut f.chars (writeBlock f.chars e (found.find? (·.name == name)) place block.chars) =
        .ok (c.fill y).chars := by
  obtain ⟨c, x, rfl, hspells, hc⟩ := exists_context_of_reached he
  rw [Nat.zero_add] at hspells
  obtain ⟨hx, hfill⟩ := Context.wellFormed_fill hf
  suffices h : ∃ (found : List Element) (old y : Forest),
      find (c.fill x).chars e.content searched = .ok found ∧ Rewritten searched name block old x y ∧
      Replaces (c.fill x).chars found name old ∧
      Splice.carryOut (c.fill x).chars
        (writeBlock (c.fill x).chars e (found.find? (·.name == name)) place block.chars) =
          .ok (c.before ++ (y.chars ++ c.behind)) by
    obtain ⟨found, old, y, hfind, hrewritten, hreplaces, hcarry⟩ := h
    refine ⟨found, c, old, x, y, hfind, rfl, hc, hspells, hrewritten,
      hfill y (wellFormed_rewritten hx hblock hrewritten), hreplaces, ?_⟩
    rw [hcarry, Context.chars_fill]
  rw [Context.chars_fill]
  cases hspells with
  | @single tag gap tagName hin =>
    obtain ⟨hline, hending⟩ := blank_line c.before
    have hlower := (searchable_of_nameIn? (fun s hs => (hnames s hs).searchable) hin).2
    have htagName := hnames tagName (List.mem_of_find?_eq_some hin)
    have hspells : (Forest.single tag gap .nil).Spells names (size c.before) _ := .single gap hin
    exact ⟨[], .nil, _, find_empty _ _ _, .opened gap htagName hlower (hvalues rfl) hline hending,
      Or.inl rfl, writeBlock_single hspells place htrim⟩
  | paired children close hin =>
    exact exists_rewritten_paired hx (.paired children close hin) hsearched name htrim place

/-! ## What is found after the edit -/

/-- What the walk reaches in the content of an element of some name. -/
def reachedIn (names : List String) (tagName : String) (content : Forest) : List Node :=
  if containerNames.contains tagName then content.reachedNodes names else []

theorem reachedNodes_paired {names : List String} {tag : WrittenTag} {tagName : String}
    (hin : tag.nameIn? names = some tagName) (content : Forest) (close : WrittenClose) :
    (Forest.paired tag content close .nil).reachedNodes names =
      ⟨tagName, tag.meant, content⟩ :: reachedIn names tagName content := by
  simp only [Forest.reachedNodes, hin, admits_of_some hin, Option.toList_some, List.map_cons, List.map_nil,
    List.singleton_append, List.append_nil]
  rfl

/-- What is reached in a content is kept if what the walk finds there is. -/
theorem rel_reachedIn {R : Node → Node → Prop} {names : List String} {content content' : Forest}
    {tagName : String}
    (h : containerNames.contains tagName = true →
      List.Forall₂ R (content.reachedNodes names) (content'.reachedNodes names)) :
    List.Forall₂ R (reachedIn names tagName content) (reachedIn names tagName content') := by
  unfold reachedIn
  by_cases hname : containerNames.contains tagName = true
  · rw [if_pos hname, if_pos hname]
    exact h hname
  · rw [if_neg hname, if_neg hname]
    exact .nil

/-- **The element in which a block has been written**: its tag says the same, the block is found in it, and
all else in it is kept; one that closes itself gets its first content. -/
theorem Rewritten.reached {searched names : List String} {name : String} {block old x y : Forest}
    (h : Rewritten searched name block old x y) {start : Nat} {e : Element} (he : x.Spells names start e)
    {n : Node} (hblock : block.nodes searched = [n]) (hname : n.name = name)
    (hnew : block.reachedNodes names = [])
    (hold : containerNames.contains e.name = true → old.reachedNodes names = []) :
    ∃ (content content' : Forest) (cut put before behind : List Char),
      x.chars = before ++ (cut ++ behind) ∧ y.chars = before ++ (put ++ behind) ∧
      x.reachedNodes names = ⟨e.name, e.attrs, content⟩ :: reachedIn names e.name content ∧
      y.reachedNodes names = ⟨e.name, e.attrs, content'⟩ :: reachedIn names e.name content' ∧
      (content'.nodes searched).find? (·.name == name) = some n ∧
      (e.selfClosing = true ∨
        Node.Kept cut put ⟨e.name, e.attrs, content⟩ ⟨e.name, e.attrs, content'⟩) ∧
      List.Forall₂ (Node.Kept cut put) (reachedIn names e.name content)
        (reachedIn names e.name content') := by
  have hfind : ∀ more : List Node, (n :: more).find? (·.name == name) = some n := fun more => by
    rw [List.find?_cons_of_pos (by simp [hname])]
  have hbehind : ∀ before more : List Node, (∀ m ∈ before, m.name ≠ name) →
      (before ++ n :: more).find? (·.name == name) = some n := fun before more hbefore => by
    rw [List.find?_append, List.find?_eq_none.mpr (by simpa using hbefore), hfind]
    rfl
  have hrefl : ∀ (cut put : List Char) (ns : List Node), List.Forall₂ (Node.Kept cut put) ns ns :=
    fun cut put ns => List.forall₂_same.mpr fun n _ => .refl cut put n
  cases h with
  | @replaced tag close c old m hclear hleft hnodes hmname =>
    cases he with
    | @paired _ _ _ tagName hin =>
      refine ⟨c.fill old, c.fill block, old.chars, block.chars, tag.text ++ ['>'] ++ c.before,
        c.behind ++ close.text, ?_, ?_, reachedNodes_paired hin _ _, reachedNodes_paired hin _ _, ?_,
        Or.inr ⟨rfl, rfl, Or.inr ⟨c.before, c.behind, ?_, ?_⟩⟩, rel_reachedIn fun hcontainer => ?_⟩
      · simp [Forest.chars, Context.chars_fill]
      · simp [Forest.chars, Context.chars_fill]
      · rw [Context.nodes_fill hclear, hblock]
        exact hbehind _ _ hleft
      · exact Context.chars_fill c old
      · exact Context.chars_fill c block
      · have hcut : old.chars = [] ++ (old.chars ++ []) := by simp
        have hput : block.chars = [] ++ (block.chars ++ []) := by simp
        refine rel_reachedNodes_fill hcut hput (fun _ _ h => h) ?_ c
        rw [hold hcontainer, hnew]
        exact .nil
  | @first tag close children line hnone hline =>
    cases he with
    | @paired _ _ _ tagName hin =>
      refine ⟨children, _, [], line ++ block.chars, tag.text ++ ['>'], children.chars ++ close.text, ?_, ?_,
        reachedNodes_paired hin _ _, reachedNodes_paired hin _ _, ?_,
        Or.inr ⟨rfl, rfl, Or.inr ⟨[], children.chars, rfl, ?_⟩⟩, rel_reachedIn fun _ => ?_⟩
      · simp [Forest.chars]
      · simp [Forest.chars, Forest.chars_append]
      · rw [Forest.nodes, Forest.nodes_append, hblock]
        exact hfind _
      · simp [Forest.chars, Forest.chars_append]
      · rw [Forest.reachedNodes, Forest.reachedNodes_append, hnew]
        exact hrefl _ _ _
  | @last tag close children line hnone hline =>
    cases he with
    | @paired _ _ _ tagName hin =>
      refine ⟨children, _, [], line ++ block.chars, tag.text ++ ['>'] ++ children.chars, close.text, ?_, ?_,
        reachedNodes_paired hin _ _, reachedNodes_paired hin _ _, ?_,
        Or.inr ⟨rfl, rfl, Or.inr ⟨children.chars, [], ?_, ?_⟩⟩, rel_reachedIn fun _ => ?_⟩
      · simp [Forest.chars]
      · simp [Forest.chars, Forest.chars_append]
      · rw [Forest.nodes_append, Forest.nodes, hblock]
        exact hbehind _ _ hnone
      · simp
      · simp [Forest.chars, Forest.chars_append]
      · rw [Forest.reachedNodes_append, Forest.reachedNodes, hnew, List.append_nil]
        exact hrefl _ _ _
  | @opened tag gap tagName line ending htagName hlower hvalues hline hending =>
    cases he with
    | @single _ _ tagName' hin =>
      have hin' : (WrittenTag.rendered tagName tag.meant []).nameIn? names = some tagName' := by
        rw [← hin]
        unfold WrittenTag.nameIn?
        rw [hlower]
        rfl
      have hmeant := meant_rendered tagName tag.meant []
      have hwhole : ∀ f : Forest, f.chars = [] ++ (f.chars ++ []) := fun f => by simp
      refine ⟨.nil, .text line (block.append (.text ending .nil)), _, _, [], [], hwhole _, hwhole _, ?_, ?_,
        ?_, Or.inl rfl, rel_reachedIn fun _ => ?_⟩
      · simp only [Forest.reachedNodes, hin, reachedIn, Option.toList_some, List.map_cons, List.map_nil,
          List.append_nil, ite_self]
      · rw [reachedNodes_paired hin', hmeant]
      · rw [Forest.nodes, Forest.nodes_append, hblock]
        exact hfind _
      · rw [Forest.reachedNodes, Forest.reachedNodes, Forest.reachedNodes_append, hnew]
        exact .nil

end Edit

end DashboardMarkup
