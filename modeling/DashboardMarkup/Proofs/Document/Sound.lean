import DashboardMarkup.Document.Dashboard
import DashboardMarkup.Proofs.Document.Gives
import DashboardMarkup.Proofs.Markup.Opens

/-!
# Notes and faults in their places

Each thing that can be wrong is about an element with a certain name, and is told of at the `<` where this
element opens. `Reading.Sound` is the contract of a reading: what it gives has a property, all that it notes
is in its place, and so is the fault that it stops with. In particular no reading that keeps it ever asks for
the text of a span whose ends are not in order, inside the document and between characters.

The rules for readings made of others (`Sound.bind`, `Sound.mapM`, `Sound.foldlM`) carry the contract from
the searches for elements, which keep it in any span that fits, up to whole dashboards.
-/

namespace DashboardMarkup

open Markup Text

/-- The names of the tags that a fault may be about. A misplaced span is about none. -/
def Fault.tags : Fault → List String
  | unterminated name _ => [name]
  | unclosed name _ => [name]
  | misplaced _ => []

/-- The name of the tag of an island. -/
def Island.tag : Island → String
  | config _ => "config"
  | _ => "style"

/-- The names of the tags that a cause may be about. A document that is not markup has none. -/
def Cause.tags : Cause → List String
  | notMarkup => []
  | fault f => f.tags
  | titleAttributes => ["dashboard"]
  | unknownMode _ => ["dashboard"]
  | malformedRange _ => ["dashboard"]
  | rangeWithoutDates => ["dashboard"]
  | malformedJson island _ => [island.tag]
  | rowWithoutId _ => ["row"]
  | rowWithoutColumns _ _ => ["row"]
  | groupWithoutId => ["group"]
  | columnNumber _ => ["column"]
  | articleWithoutId _ => ["article"]
  | unknownChart _ _ => ["main"]
  | widgetWithoutId => widgetNames
  | widgetWithoutKind _ => widgetNames
  | unknownKind _ _ => widgetNames
  | misfitConfig _ _ _ => ["config"]
  | itemWithoutId _ => ["item"]

/-- A fault is in its place if an element that it may be about opens there. -/
def Fault.Placed (doc : List Char) (fault : Fault) : Prop :=
  Opens doc fault.tags fault.offset

/-- So is a note, which tells of no fault. -/
structure Note.Placed (doc : List Char) (note : Note) : Prop where
  kind : note.cause.kind ≠ .unreadable
  opens : Opens doc note.cause.tags note.offset

theorem Fault.Placed.ne_misplaced {doc : List Char} {fault : Fault} (h : fault.Placed doc) (span : Span) :
    fault ≠ .misplaced span := by
  rintro rfl
  obtain ⟨before, word, rest, -, -, name, hname, -⟩ := h
  exact absurd hname List.not_mem_nil

namespace Reading

variable {doc : List Char} {α β : Type} {P : α → Prop} {Q : β → Prop}

/-- **The contract of a reading**: its value has a property and its notes are in their places, or the fault
that it stops with is in its place. -/
def Sound (doc : List Char) (P : α → Prop) : Reading α → Prop
  | .ok (a, notes) => P a ∧ ∀ note ∈ notes, note.Placed doc
  | .error fault => fault.Placed doc

theorem sound_pure {a : α} (h : P a) : (pure a : Reading α).Sound doc P :=
  ⟨h, fun _ hn => absurd hn List.not_mem_nil⟩

theorem Sound.bind {x : Reading α} {f : α → Reading β} (hx : x.Sound doc P)
    (hf : ∀ a, P a → (f a).Sound doc Q) : (x >>= f).Sound doc Q := by
  match x, hx with
  | .error fault, hfault => exact hfault
  | .ok (a, first), ⟨ha, hfirst⟩ =>
    have hfa := hf a ha
    simp only [Bind.bind, andThen]
    match f a, hfa with
    | .error fault, hfault => exact hfault
    | .ok (b, second), ⟨hb, hsecond⟩ =>
      exact ⟨hb, fun note hn => (List.mem_append.mp hn).elim (hfirst note) (hsecond note)⟩

theorem Sound.imp {P' : α → Prop} {x : Reading α} (hx : x.Sound doc P) (h : ∀ a, P a → P' a) :
    x.Sound doc P' := by
  match x, hx with
  | .error fault, hfault => exact hfault
  | .ok (a, notes), ⟨ha, hnotes⟩ => exact ⟨h a ha, hnotes⟩

/-- What is known of the value a reading gives, whatever it notes on the way. -/
theorem Sound.of_gives {P' : α → Prop} {x : Reading α} (hx : x.Sound doc P) (h : ∀ a, x.Gives a → P' a) :
    x.Sound doc P' := by
  match x, hx with
  | .error fault, hfault => exact hfault
  | .ok (a, notes), ⟨_, hnotes⟩ => exact ⟨h a ⟨notes, rfl⟩, hnotes⟩

theorem sound_note {cause : Cause} {offset : Nat} (hkind : cause.kind ≠ .unreadable)
    (h : Opens doc cause.tags offset) : (note cause offset).Sound doc fun _ => True :=
  ⟨trivial, fun _ hn => by
    obtain rfl := List.mem_singleton.mp hn
    exact ⟨hkind, h⟩⟩

/-- A note before a value. -/
theorem sound_note_pure {cause : Cause} {offset : Nat} {a : α} (hkind : cause.kind ≠ .unreadable)
    (h : Opens doc cause.tags offset) (ha : P a) :
    (note cause offset >>= fun _ => pure a : Reading α).Sound doc P :=
  (sound_note hkind h).bind fun _ _ => sound_pure ha

theorem sound_stop {fault : Fault} (h : fault.Placed doc) : (stop fault : Reading α).Sound doc P :=
  h

/-- A list that is read member by member. -/
theorem Sound.mapM {f : α → Reading β} {as : List α} (hf : ∀ a ∈ as, (f a).Sound doc Q) :
    (as.mapM f).Sound doc fun bs => ∀ b ∈ bs, Q b := by
  induction as with
  | nil => exact sound_pure fun _ hb => absurd hb List.not_mem_nil
  | cons a as ih =>
    rw [List.mapM_cons]
    refine (hf a List.mem_cons_self).bind fun b hb => ?_
    refine (ih fun a' ha' => hf a' (List.mem_cons_of_mem a ha')).bind fun bs hbs => ?_
    exact sound_pure (List.forall_mem_cons.mpr ⟨hb, hbs⟩)

/-- Elements that are read with their places. -/
theorem sound_places {read : Nat → Element → Reading β} {es : List Element}
    (h : ∀ e ∈ es, ∀ place, (read place e).Sound doc Q) :
    ((es.zipIdx 1).mapM fun (e, place) => read place e).Sound doc fun bs => ∀ b ∈ bs, Q b :=
  Sound.mapM fun p hp => h p.1 (List.fst_mem_of_mem_zipIdx hp) p.2

/-- What is kept of values that may be absent. -/
theorem forall_mem_kept {made : List (Option α)} (h : ∀ a? ∈ made, ∀ a ∈ a?, P a) :
    ∀ a ∈ made.filterMap fun a? => a?, P a := fun a ha => by
  obtain ⟨a?, ha?, ha⟩ := List.mem_filterMap.mp ha
  exact h a? ha? a ha

/-- A value that is changed by one member after another, with a property that each change keeps. -/
theorem Sound.foldlM {f : β → α → Reading β} {as : List α} {b : β}
    (hf : ∀ a ∈ as, ∀ b, Q b → (f b a).Sound doc Q) (hb : Q b) : (as.foldlM f b).Sound doc Q := by
  induction as generalizing b with
  | nil => exact sound_pure hb
  | cons a as ih =>
    rw [List.foldlM_cons]
    refine (hf a List.mem_cons_self b hb).bind fun b' hb' => ?_
    exact ih (fun a' ha' => hf a' (List.mem_cons_of_mem a ha')) hb'

/-! ## What is found without notes -/

theorem sound_lift_pure {a : α} (h : P a) : (liftM (pure a : Except Fault α) : Reading α).Sound doc P :=
  sound_pure h

theorem sound_lift_ok {x : Except Fault α} (h : ∃ a, x = .ok a ∧ P a) : (liftM x : Reading α).Sound doc P := by
  obtain ⟨a, rfl, ha⟩ := h
  exact sound_pure ha

theorem sound_lift_bind {x : Except Fault α} {f : α → Except Fault β}
    (hx : (liftM x : Reading α).Sound doc P) (hf : ∀ a, P a → (liftM (f a) : Reading β).Sound doc Q) :
    (liftM (x >>= f) : Reading β).Sound doc Q := by
  cases x with
  | error fault => exact hx
  | ok a => exact hf a hx.1

theorem sound_lift_mapM {f : α → Except Fault β} {as : List α}
    (hf : ∀ a ∈ as, (liftM (f a) : Reading β).Sound doc Q) :
    (liftM (as.mapM f) : Reading (List β)).Sound doc fun bs => ∀ b ∈ bs, Q b := by
  induction as with
  | nil => exact sound_lift_pure fun _ hb => absurd hb List.not_mem_nil
  | cons a as ih =>
    rw [List.mapM_cons]
    refine sound_lift_bind (hf a List.mem_cons_self) fun b hb => ?_
    refine sound_lift_bind (ih fun a' ha' => hf a' (List.mem_cons_of_mem a ha')) fun bs hbs => ?_
    exact sound_lift_pure (List.forall_mem_cons.mpr ⟨hb, hbs⟩)

/-- **A search in a span that fits keeps the contract.** -/
theorem sound_find {span : Span} (hfits : span.Fits doc) (names : List String) :
    (liftM (find doc span names) : Reading (List Element)).Sound doc (Found doc span names) := by
  cases h : find doc span names with
  | ok found => exact sound_pure (found_of_find hfits h)
  | error fault =>
    obtain ⟨name, start, rfl, hopens⟩ := opens_of_find_error hfits h
    exact hopens

theorem sound_findFirst {span : Span} (hfits : span.Fits doc) (name : String) :
    (liftM (findFirst doc span name) : Reading (Option Element)).Sound doc
      fun found => ∀ e ∈ found, e.name = name ∧ e.Sited doc := by
  have hmap : findFirst doc span name = find doc span [name] >>= fun found => pure found.head? := by
    unfold findFirst
    cases find doc span [name] <;> rfl
  rw [hmap]
  refine sound_lift_bind (sound_find hfits [name]) fun found hfound => sound_lift_pure fun e he => ?_
  have hmem := List.mem_of_head? he
  exact ⟨List.mem_singleton.mp (hfound.name e hmem), hfound.sited e hmem⟩

theorem sound_text {span : Span} (hfits : span.Fits doc) :
    (liftM (span.text doc) : Reading (List Char)).Sound doc fun _ => True := by
  obtain ⟨text, htext⟩ := hfits.text_eq_ok
  exact sound_lift_ok ⟨text, htext, trivial⟩

theorem sound_innerText {e : Element} (h : e.Sited doc) :
    (liftM (e.innerText doc) : Reading (List Char)).Sound doc fun _ => True := by
  obtain ⟨text, htext⟩ := h.exists_innerText
  exact sound_lift_ok ⟨text, htext, trivial⟩

end Reading

/-! ## Tags of an element -/

namespace Markup.Element.Sited

variable {doc : List Char} {e : Element}

/-- What is told of an element that is found is in its place if it may be about elements of its name. -/
theorem opens_of_mem (h : e.Sited doc) {names : List String} (hname : e.name ∈ names) :
    Opens doc names e.start :=
  h.opens.mono fun _ hn => List.mem_singleton.mp hn ▸ hname

/-- An element without its close tag is a fault in its place. -/
theorem placed_unclosed (h : e.Sited doc) : (Fault.unclosed e.name e.start).Placed doc :=
  h.opens

end Markup.Element.Sited

end DashboardMarkup
