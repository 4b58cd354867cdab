import DashboardMarkup.Proofs.Document.Placed
import DashboardMarkup.Proofs.Document.Topics

/-!
# Elements that make no widget

An element that should make a widget makes none if it lacks its id or its kind, or if its kind is unknown, and
exactly one note says so. No other note is about this: what the readers of the other parts note is something
else. So the notes that refuse widgets can be counted against the elements.

* `Reading.Refuses`: the causes for which a reading refuses widgets.
* `Node.refusal?`: why a node makes no widget; `isSome_refusal?`: it has a reason exactly if it makes none.
* `refuses_readDocument`: a board refuses the widgets of the nodes on its grid that make none, in order.
-/

namespace DashboardMarkup

open Markup Text

/-- Whether a cause is that an element makes no widget. -/
def Cause.refuses : Cause → Bool
  | widgetWithoutId => true
  | widgetWithoutKind _ => true
  | unknownKind _ _ => true
  | _ => false

/-- Only widgets are refused for what is wrong with them. -/
theorem Cause.refuses_iff {cause : Cause} : cause.refuses = true ↔ cause.topic = .widget := by
  cases cause <;> simp [refuses, topic]

/-- The causes among some notes for which widgets are refused. -/
def refusals (notes : List Note) : List Cause :=
  (notes.map Note.cause).filter Cause.refuses

theorem refusals_append (first second : List Note) :
    refusals (first ++ second) = refusals first ++ refusals second := by
  unfold refusals
  rw [List.map_append, List.filter_append]

namespace Reading

variable {α β : Type}

/-- **The causes for which a reading refuses widgets**, in order, unless it stops. -/
def Refuses (x : Reading α) (causes : List Cause) : Prop :=
  ∀ a notes, x = .ok (a, notes) → refusals notes = causes

theorem refuses_pure (a : α) : (pure a : Reading α).Refuses [] := by
  rintro b notes ⟨⟩
  rfl

theorem refuses_lift (x : Except Fault α) : (liftM x : Reading α).Refuses [] := by
  intro b notes h
  cases x with
  | error fault => cases h
  | ok a =>
    obtain ⟨-, rfl⟩ := pure_eq_ok.mp h
    rfl

theorem refuses_note (cause : Cause) (offset : Nat) :
    (note cause offset).Refuses (if cause.refuses then [cause] else []) := by
  rintro a notes ⟨⟩
  simp only [refusals, List.map_cons, List.map_nil, List.filter_cons, List.filter_nil]

/-- What follows need only be known of the value that is given. -/
theorem Refuses.bind {x : Reading α} {f : α → Reading β} {first second : List Cause} (hx : x.Refuses first)
    (hf : ∀ a, x.Gives a → (f a).Refuses second) : (x >>= f).Refuses (first ++ second) := by
  intro b notes h
  obtain ⟨a, before, behind, hbefore, hbehind, rfl⟩ := bind_eq_ok.mp h
  rw [refusals_append, hx a before hbefore, hf a ⟨before, hbefore⟩ b behind hbehind]

/-- A reading that refuses nothing, and what follows on it. -/
theorem Refuses.then {x : Reading α} {f : α → Reading β} {causes : List Cause} (hx : x.Refuses [])
    (hf : ∀ a, x.Gives a → (f a).Refuses causes) : (x >>= f).Refuses causes :=
  hx.bind hf

/-- Nothing more is refused by what follows. -/
theorem Refuses.before {x : Reading α} {f : α → Reading β} {causes : List Cause} (hx : x.Refuses causes)
    (hf : ∀ a, (f a).Refuses []) : (x >>= f).Refuses causes := by
  have h := hx.bind fun a _ => hf a
  rwa [List.append_nil] at h

theorem Refuses.map {x : Reading α} {causes : List Cause} (hx : x.Refuses causes) (f : α → β) :
    (x >>= fun a => pure (f a)).Refuses causes :=
  hx.before fun a => refuses_pure (f a)

theorem Refuses.mapM {f : α → Reading β} {as : List α} {causes : List (List Cause)}
    (h : List.Forall₂ (fun causes a => (f a).Refuses causes) causes as) : (as.mapM f).Refuses causes.flatten := by
  induction h with
  | nil => exact refuses_pure []
  | cons ha _ ih =>
    rw [List.mapM_cons, List.flatten_cons]
    exact ha.bind fun b _ => ih.map (b :: ·)

/-- **A reading that notes nothing about widgets refuses none.** -/
theorem Tells.refuses {x : Reading α} {topics : List Topic} (hx : x.Tells topics) (h : Topic.widget ∉ topics) :
    x.Refuses [] := by
  intro a notes heq
  refine List.filter_eq_nil_iff.mpr fun cause hcause hrefuses => ?_
  obtain ⟨note, hnote, rfl⟩ := List.mem_map.mp hcause
  exact h (Cause.refuses_iff.mp hrefuses ▸ hx a notes heq note hnote)

end Reading

/-! ## Nodes that make no widget -/

namespace Markup

/-- Why a node makes no widget. -/
def Node.refusal? (n : Node) : Option Cause :=
  match n.attrs.text? "id" with
  | none => some .widgetWithoutId
  | some id =>
    match n.attrs.text? "type" with
    | some given => if (WidgetKind.ofText? given).isSome then none else some (.unknownKind id given)
    | none => if (kindOfTag n.name).isSome then none else some (.widgetWithoutKind id)

variable {doc : List Char} {n : Node} {e : Element}

/-- An element is refused a widget for the reason that its node has. -/
theorem refuses_identify (hname : e.name = n.name) (hattrs : e.attrs = n.attrs) :
    (Widget.identify e).Refuses n.refusal?.toList := by
  unfold Widget.identify Node.refusal?
  rw [hname, hattrs]
  cases n.attrs.text? "id" with
  | none => exact (Reading.refuses_note .widgetWithoutId e.start).map fun _ => none
  | some id =>
    simp only
    cases n.attrs.text? "type" with
    | some given =>
      simp only
      cases WidgetKind.ofText? given with
      | some kind => exact Reading.refuses_pure _
      | none => exact (Reading.refuses_note (.unknownKind id given) e.start).map fun _ => none
    | none =>
      simp only
      cases kindOfTag n.name with
      | some kind => exact Reading.refuses_pure _
      | none => exact (Reading.refuses_note (.widgetWithoutKind id) e.start).map fun _ => none

/-- **A node makes a widget or has a reason to make none**, never both. -/
theorem isSome_refusal? (hn : n.content.WellFormed) : n.refusal?.isSome = !n.widget?.isSome := by
  rw [isSome_widget? hn]
  unfold Node.refusal? Node.identity? Widget.identify
  simp only [show n.alone.attrs = n.attrs from rfl, show n.alone.name = n.name from rfl]
  cases n.attrs.text? "id" with
  | none => rfl
  | some id =>
    simp only
    cases n.attrs.text? "type" with
    | some given =>
      simp only
      cases WidgetKind.ofText? given with
      | some kind => rfl
      | none => rfl
    | none =>
      simp only
      cases kindOfTag n.name with
      | some kind => rfl
      | none => rfl

theorem refuses_ofGridElement (column : Option Nat) (hname : e.name = n.name) (hattrs : e.attrs = n.attrs) :
    (Widget.ofGridElement doc column e).Refuses n.refusal?.toList := by
  refine (refuses_identify hname hattrs).before fun found => ?_
  split
  · exact Reading.refuses_pure none
  · exact ((Widget.tells_readBlocks doc e _).refuses (by decide)).map some

theorem refuses_ofGridElements {ns : List Node} {es : List Element} (h : List.Forall₂ (Node.Seen doc) ns es) :
    (Widget.ofGridElements doc none es).Refuses (ns.filterMap Node.refusal?) := by
  rw [List.filterMap_eq_flatMap_toList, List.flatMap_def]
  refine Reading.Refuses.map (Reading.Refuses.mapM ?_) _
  rw [List.forall₂_map_left_iff]
  refine h.imp fun n e hn => refuses_ofGridElement none ?_ ?_
  · rw [← Element.name_asClosed]
    exact hn.name
  · rw [← Element.attrs_asClosed]
    exact hn.attrs

/-- **A group refuses the widgets of its members.** -/
theorem refuses_group (h : n.Shown doc e) (hn : n.content.WellFormed) (columns : Breakpoints Nat) :
    (GroupPart.read doc columns e).Refuses (n.members.filterMap Node.refusal?) := by
  unfold GroupPart.read Node.members
  rw [if_pos h.closed, h.attrs]
  cases n.attrs.text? "id" with
  | none => exact (Reading.tells_note_pure (List.mem_singleton_self _) _ _).refuses (by decide)
  | some id =>
    obtain ⟨found, hfound, hshown⟩ := @Node.Shown.find _ _ _ h hn ("style" :: widgetNames) (by decide)
    refine (Reading.refuses_lift _).then fun found' hfound' => ?_
    obtain rfl := hfound'.unique (Reading.gives_of_ok hfound)
    refine ((Group.tells_readStyle doc id _).refuses (by decide)).then fun style _ => ?_
    exact (refuses_ofGridElements ((shown_filter hshown (· != "style")).imp fun m d hm => hm.seen)).map _

end Markup

/-! ## Grids and documents -/

theorem refuses_readLoose {doc : List Char} {ranges : List Span} {ess : List (List Element)}
    (hfind : List.Forall₂ (fun range es => find doc range widgetNames = .ok es) ranges ess) {ns : List Node}
    (hshown : List.Forall₂ (Node.Seen doc) ns ess.flatten) :
    (ranges.mapM (Placement.readLoose doc)).Refuses (ns.filterMap Node.refusal?) := by
  induction hfind generalizing ns with
  | nil =>
    obtain rfl := List.forall₂_nil_right_iff.mp hshown
    exact Reading.refuses_pure []
  | @cons range es ranges ess hes _ ih =>
    rw [List.flatten_cons] at hshown
    have hfirst := List.forall₂_take_append ns es ess.flatten hshown
    have hrest := ih (List.forall₂_drop_append ns es ess.flatten hshown)
    rw [← List.take_append_drop es.length ns, List.filterMap_append, List.mapM_cons]
    refine Reading.Refuses.bind ?_ fun made _ => hrest.map (made :: ·)
    refine (Reading.refuses_lift _).then fun found hfound => ?_
    obtain rfl := hfound.unique (Reading.gives_of_ok hes)
    exact refuses_ofGridElements hfirst

/-- **A grid refuses the widgets of the nodes on it that make none**, those in its groups first. -/
theorem refuses_readGrid {f : Forest} (hf : f.WellFormed) (before behind : List Char) (attrs : Attributes) :
    (Placement.readGrid (before ++ (f.chars ++ behind)) attrs ⟨size before, size before + size f.chars⟩).Refuses
      (((f.nodes ["group"]).flatMap Node.members ++ f.strays "group" widgetNames).filterMap Node.refusal?) := by
  have hshown := @shown_outermost (before ++ (f.chars ++ behind)) ["group"] f before behind rfl
  have hparts : ((f.outermost ["group"] (size before)).mapM
      (GroupPart.read (before ++ (f.chars ++ behind)) (Placement.gridColumns attrs))).Refuses
        (((f.nodes ["group"]).flatMap Node.members).filterMap Node.refusal?) := by
    rw [List.filterMap_flatMap, List.flatMap_def]
    refine Reading.Refuses.mapM ?_
    rw [List.forall₂_map_left_iff]
    exact (forall₂_wellFormed hshown fun n hn => wellFormed_of_mem_nodes hf hn).imp
      fun n e hn => refuses_group hn.2 hn.1 _
  have hstrewn := @strewn_forest widgetNames "group" (by decide) f hf (size before)
  obtain ⟨ess, hfind, hstrays⟩ := @Strewn.find _ (by decide) _ _ _ _ hstrewn before behind rfl
  refine (Reading.refuses_lift _).then fun found hfound => ?_
  obtain rfl := hfound.unique (Reading.gives_of_ok (find_forest (by decide) hf before behind))
  rw [List.filterMap_append]
  exact hparts.bind fun parts _ => (refuses_readLoose hfind hstrays).map _

/-- **So does a document whose root is laid out on a grid**, whatever else is noted of it. -/
theorem refuses_readDocument {f : Forest} (hf : f.WellFormed) {root : Node}
    (hroot : (f.nodes ["dashboard"]).head? = some root) (hgrid : root.IsGrid) :
    (Dashboard.readDocument f.chars).Refuses
      (((root.content.nodes ["group"]).flatMap Node.members ++
        root.content.strays "group" widgetNames).filterMap Node.refusal?) := by
  have hwell : root.content.WellFormed := wellFormed_of_mem_nodes hf (List.mem_of_mem_head? hroot)
  obtain ⟨e, hshown, hfind⟩ := exists_root hf hroot
  obtain ⟨before, behind, hdoc, hspan⟩ := hshown.content
  have hplacement := refuses_readGrid hwell before behind root.attrs
  rw [← hdoc, ← hspan] at hplacement
  refine (Reading.refuses_lift _).then fun found hfound => ?_
  obtain rfl := hfound.unique (Reading.gives_of_ok hfind)
  refine ((Heading.tells_read _ _ _ _).refuses (by decide)).then fun heading _ => ?_
  refine ((DateRange.tells_read _ _ heading).refuses (by decide)).then fun period _ => ?_
  refine ((CanvasStyle.tells_readBlocks _ _).refuses (by decide)).then fun blocks _ => ?_
  refine ((RowPart.tells_ofSections _ _).refuses (by decide)).then fun sections _ => ?_
  refine ((Placement.tells_readMode _ _).refuses (by decide)).then fun mode hmode => ?_
  obtain rfl := hmode.unique (gives_readMode hgrid e.start)
  exact hplacement.map _

end DashboardMarkup
