import DashboardMarkup.Proofs.Document.Fixed
import DashboardMarkup.Proofs.Markup.Strewn

/-!
# Grids as trees

What a grid gives is said of the tree that it is written as: the groups with the widgets in them, and behind
these the widgets outside all groups.

* `Node.widget?`, `Node.groupPart`: what a node makes, wherever it is shown.
* `gives_readGrid`: a grid is read as its tree says.
-/

namespace DashboardMarkup

open Markup Text

namespace Reading

/-- The value of a reading, unless it stops. -/
def value? {α : Type} (x : Reading α) : Option α :=
  match x with
  | .ok (a, _) => some a
  | .error _ => none

theorem Gives.value?_eq {α : Type} {x : Reading α} {a : α} (h : x.Gives a) : x.value? = some a := by
  obtain ⟨notes, rfl⟩ := h
  rfl

end Reading

namespace Markup

/-- An element that shows a node by itself. -/
def Node.alone (n : Node) : Element :=
  ⟨n.name, 0, 0, n.attrs, .paired ⟨0, size n.content.chars⟩ (size n.content.chars)⟩

theorem shown_alone (n : Node) : n.Shown n.content.chars n.alone := by
  have hshown := @shown_paired n.content.chars n.name 0 (size n.content.chars) n.attrs [] []
    n.content (by simp)
  simpa [Node.alone] using hshown

/-- What is read of a node, wherever it is shown. -/
def Node.value? {α : Type} (read : List Char → Element → Reading α) (n : Node) : Option α :=
  (read n.content.chars n.alone).value?

section

variable {α : Type} {read : List Char → Element → Reading α}

theorem Node.Shown.gives (hread : ∀ t : Twins, t.Fixes read) {doc : List Char} {n : Node} {e : Element}
    (h : n.Shown doc e) (hn : n.content.WellFormed) : ∃ a, n.value? read = some a ∧ (read doc e).Gives a := by
  obtain ⟨a, ha⟩ := hread (.same n hn)
  exact ⟨a, (ha _ _ (Or.inl (shown_alone n))).value?_eq, ha doc e (Or.inl h)⟩

/-- Nodes that differ by superfluous breaks say the same. -/
theorem value?_alike (hread : ∀ t : Twins, t.Fixes read) {n m : Node} (h : n.Alike m)
    (hn : n.content.WellFormed) (hm : m.content.WellFormed) : m.value? read = n.value? read := by
  obtain ⟨a, ha⟩ := hread ⟨n, m, hn, hm, h⟩
  have hleft := (ha _ _ (Or.inl (shown_alone n))).value?_eq
  have hright := (ha _ _ (Or.inr (shown_alone m))).value?_eq
  unfold Node.value?
  rw [hleft, hright]

end

/-- The widget that a node makes on a grid. -/
def Node.widget? (n : Node) : Option Widget :=
  (n.value? fun doc => Widget.ofGridElement doc none).join

theorem Node.Shown.widget {doc : List Char} {n : Node} {e : Element} (h : n.Shown doc e)
    (hn : n.content.WellFormed) : (Widget.ofGridElement doc none e).Gives n.widget? := by
  obtain ⟨w, hvalue, hgives⟩ := h.gives (fun t => fixes_ofGridElement t none) hn
  unfold Node.widget?
  rw [hvalue]
  exact hgives

/-- Superfluous breaks make no difference to a widget. -/
theorem widget?_alike {n m : Node} (h : n.Alike m) (hn : n.content.WellFormed) (hm : m.content.WellFormed) :
    m.widget? = n.widget? := by
  unfold Node.widget?
  rw [value?_alike (fun t => fixes_ofGridElement t none) h hn hm]

/-- A missing close tag makes no difference to the widget. -/
theorem ofGridElement_asClosed (doc : List Char) (column : Option Nat) (e : Element) :
    Widget.ofGridElement doc column e.asClosed = Widget.ofGridElement doc column e := by
  unfold Widget.ofGridElement Widget.identify Widget.readBlocks
  simp only [Element.name_asClosed, Element.start_asClosed, Element.attrs_asClosed, Element.content_asClosed]

theorem Node.Seen.widget {doc : List Char} {n : Node} {e : Element} (h : n.Seen doc e)
    (hn : n.content.WellFormed) : (Widget.ofGridElement doc none e).Gives n.widget? := by
  rw [← ofGridElement_asClosed]
  exact Node.Shown.widget h hn

/-- What is kept of some elements by their names shows what is kept of their nodes. -/
theorem shown_filter {doc : List Char} {ns : List Node} {es : List Element}
    (h : List.Forall₂ (Node.Shown doc) ns es) (p : String → Bool) :
    List.Forall₂ (Node.Shown doc) (ns.filter fun n => p n.name) (es.filter fun e => p e.name) :=
  List.rel_filter (p := fun n : Node => p n.name) (q := fun e : Element => p e.name)
    (fun n e hn => by simp only [hn.name]) h

/-- Nodes that are all well-formed, each with its element. -/
theorem forall₂_wellFormed {R : Node → Element → Prop} {ns : List Node} {es : List Element}
    (h : List.Forall₂ R ns es) (hwell : ∀ n ∈ ns, n.content.WellFormed) :
    List.Forall₂ (fun n e => n.content.WellFormed ∧ R n e) ns es :=
  (List.forall₂_and_left (p := fun n : Node => n.content.WellFormed) ns es).mpr ⟨hwell, h⟩

/-- The widgets that some elements of a grid make. -/
theorem gives_ofGridElements {doc : List Char} {ns : List Node} {es : List Element}
    (h : List.Forall₂ (Node.Seen doc) ns es) (hwell : ∀ n ∈ ns, n.content.WellFormed) :
    (Widget.ofGridElements doc none es).Gives (ns.filterMap Node.widget?) := by
  have hmade : (es.mapM (Widget.ofGridElement doc none)).Gives (ns.map Node.widget?) := by
    refine Reading.Gives.mapM ?_
    rw [List.forall₂_map_left_iff]
    exact (forall₂_wellFormed h hwell).imp fun n e hn => hn.2.widget hn.1
  have hall := hmade.map fun made => made.filterMap fun w => w
  rw [List.filterMap_map] at hall
  exact hall

/-! ## Groups -/

/-- The style blocks of a group. -/
def Node.styles (n : Node) : List Node :=
  (n.content.nodes ("style" :: widgetNames)).filter (·.name == "style")

/-- The style of a group. -/
def Node.groupStyle? (n : Node) : Option Json.Object :=
  match n.styles.filterMap fun s => styleObject? s.content.chars with
  | [] => none
  | objects => some (objects.foldl Json.Object.overlay [])

/-- The widgets that the members of a group make. -/
def Node.memberWidgets (n : Node) : List Widget :=
  (n.content.loose "style" widgetNames).filterMap Node.widget?

/-- The group that a node makes on a grid with some columns. -/
def Node.groupPart (columns : Breakpoints Nat) (n : Node) : GroupPart :=
  match n.attrs.text? "id" with
  | none => ⟨none, []⟩
  | some id =>
    ⟨some { Group.ofAttributes id n.attrs columns with
      style := n.groupStyle?, children := n.memberWidgets.map Widget.id }, n.memberWidgets⟩

theorem gives_readStyles {doc : List Char} {ns : List Node} {es : List Element}
    (h : List.Forall₂ (Node.Shown doc) ns es) (island : Island) :
    (es.mapM (island.readStyle doc)).Gives (ns.map fun n => styleObject? n.content.chars) := by
  refine Reading.Gives.mapM ?_
  rw [List.forall₂_map_left_iff]
  exact h.imp fun n e hn => gives_readStyle island hn.innerText

theorem gives_groupStyle {doc : List Char} {n : Node} {es : List Element}
    (h : List.Forall₂ (Node.Shown doc) n.styles es) (id : String) :
    (Group.readStyle doc id es).Gives n.groupStyle? := by
  refine (gives_readStyles h (.groupStyle id)).bind ?_
  unfold Node.groupStyle?
  rw [List.filterMap_map]
  show Reading.Gives (match n.styles.filterMap fun s => styleObject? s.content.chars with
    | [] => _
    | objects => _) _
  cases n.styles.filterMap fun s => styleObject? s.content.chars with
  | nil => exact Reading.gives_pure none
  | cons o os => exact Reading.gives_pure _

/-- **A group is read as its node says.** -/
theorem Node.Shown.group {doc : List Char} {n : Node} {e : Element} (h : n.Shown doc e)
    (hn : n.content.WellFormed) (columns : Breakpoints Nat) :
    (GroupPart.read doc columns e).Gives (n.groupPart columns) := by
  unfold GroupPart.read Node.groupPart
  rw [if_pos h.closed, h.attrs]
  cases hid : n.attrs.text? "id" with
  | none => exact (Reading.gives_note _ _).bind (Reading.gives_pure _)
  | some id =>
    obtain ⟨found, hfound, hshown⟩ := @Node.Shown.find _ _ _ h hn ("style" :: widgetNames) (by decide)
    refine (Reading.gives_of_ok hfound).bind ?_
    refine (gives_groupStyle (shown_filter hshown (· == "style")) id).bind ?_
    have hmembers := (shown_filter hshown (· != "style")).imp fun m d hm => hm.seen
    refine (gives_ofGridElements hmembers ?_).bind (Reading.gives_pure _)
    intro m hm
    exact wellFormed_of_mem_nodes hn (List.mem_of_mem_filter hm)

end Markup

/-! ## Grids -/

/-- The widgets in some ranges, if what is found there shows some nodes. -/
theorem gives_readLoose {doc : List Char} {ranges : List Span} {ess : List (List Element)}
    (hfind : List.Forall₂ (fun range es => find doc range widgetNames = .ok es) ranges ess) {ns : List Node}
    (hshown : List.Forall₂ (Node.Seen doc) ns ess.flatten) (hwell : ∀ n ∈ ns, n.content.WellFormed) :
    ∃ wss, (ranges.mapM (Placement.readLoose doc)).Gives wss ∧ wss.flatten = ns.filterMap Node.widget? := by
  induction hfind generalizing ns with
  | nil =>
    obtain rfl := List.forall₂_nil_right_iff.mp hshown
    exact ⟨[], Reading.gives_pure [], rfl⟩
  | @cons range es ranges ess hes _ ih =>
    rw [List.flatten_cons] at hshown
    have hfirst := List.forall₂_take_append ns es ess.flatten hshown
    have hrest := List.forall₂_drop_append ns es ess.flatten hshown
    obtain ⟨wss, hgives, hflat⟩ := ih hrest fun n hn => hwell n (List.mem_of_mem_drop hn)
    have hloose := gives_ofGridElements hfirst fun n hn => hwell n (List.mem_of_mem_take hn)
    refine ⟨(ns.take es.length).filterMap Node.widget? :: wss, ?_, ?_⟩
    · rw [List.mapM_cons]
      exact ((Reading.gives_of_ok hes).bind hloose).bind (hgives.map (_ :: ·))
    · rw [List.flatten_cons, hflat, ← List.filterMap_append, List.take_append_drop]

/-- **A grid is read as its tree says.** -/
theorem gives_readGrid {f : Forest} (hf : f.WellFormed) (before behind : List Char) (attrs : Attributes) :
    (Placement.readGrid (before ++ (f.chars ++ behind)) attrs ⟨size before, size before + size f.chars⟩).Gives
      { layout := .grid (Placement.gridColumns attrs) attrs.gapX? attrs.gapY?
          (((f.nodes ["group"]).map (Node.groupPart (Placement.gridColumns attrs))).filterMap GroupPart.group)
        widgets := ((f.nodes ["group"]).map (Node.groupPart (Placement.gridColumns attrs))).flatMap
            GroupPart.widgets ++
          (f.strays "group" widgetNames).filterMap Node.widget? } := by
  have hshown := @shown_outermost (before ++ (f.chars ++ behind)) ["group"] f before behind rfl
  have hparts : ((f.outermost ["group"] (size before)).mapM
      (GroupPart.read (before ++ (f.chars ++ behind)) (Placement.gridColumns attrs))).Gives
        ((f.nodes ["group"]).map (Node.groupPart (Placement.gridColumns attrs))) := by
    refine Reading.Gives.mapM ?_
    rw [List.forall₂_map_left_iff]
    exact (forall₂_wellFormed hshown fun n hn => wellFormed_of_mem_nodes hf hn).imp
      fun n e hn => hn.2.group hn.1 _
  have hstrewn := @strewn_forest widgetNames "group" (by decide) f hf (size before)
  obtain ⟨ess, hfind, hstrays⟩ := @Strewn.find _ (by decide) _ _ _ _ hstrewn before behind rfl
  obtain ⟨wss, hgives, hflat⟩ := gives_readLoose hfind hstrays fun n hn => wellFormed_of_mem_strays hf hn
  refine (Reading.gives_of_ok (find_forest (by decide) hf before behind)).bind ?_
  refine hparts.bind ?_
  refine hgives.bind ?_
  rw [hflat]
  exact Reading.gives_pure _

end DashboardMarkup
