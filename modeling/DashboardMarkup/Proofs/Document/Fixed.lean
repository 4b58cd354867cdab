import DashboardMarkup.Document.Placement
import DashboardMarkup.Proofs.Document.Gives
import DashboardMarkup.Proofs.Json.Reader
import DashboardMarkup.Proofs.Markup.Alike

/-!
# What a node fixes

What is read from an element does not depend on where it stands. It is fixed by the node that the element
shows, and superfluous line breaks do not change it.

* `Twins.Fixes`: a reading gives the same value wherever one of two nodes is shown.
* `fixes_mapM`, `fixes_foldlM`: so do readings of lists.
* `fixes_ofGridElement`: two nodes that differ by superfluous breaks make the same widget.
-/

namespace DashboardMarkup.Markup

open Text

variable {α β : Type}

/-- **A reading gives the same value wherever one of two nodes is shown.** -/
def Twins.Fixes (t : Twins) (read : List Char → Element → Reading α) : Prop :=
  ∃ a, ∀ doc e, t.Shown doc e → (read doc e).Gives a

/-- A reading of some elements gives the same value wherever they show some nodes. -/
def FixedBy (ts : List Twins) (read : List Char → List Element → Reading α) : Prop :=
  ∃ a, ∀ doc es, List.Forall₂ (Twins.Shown doc) ts es → (read doc es).Gives a

theorem Twins.Fixes.of_eq {t : Twins} {read read' : List Char → Element → Reading α} (h : t.Fixes read)
    (heq : ∀ doc e, t.Shown doc e → read' doc e = read doc e) : t.Fixes read' := by
  obtain ⟨a, ha⟩ := h
  refine ⟨a, fun doc e he => ?_⟩
  rw [heq doc e he]
  exact ha doc e he

theorem fixes_pure (t : Twins) (a : α) : t.Fixes fun _ _ => pure a :=
  ⟨a, fun _ _ _ => Reading.gives_pure a⟩

theorem fixes_mapM {read : List Char → Element → Reading α} {ts : List Twins}
    (h : ∀ t ∈ ts, t.Fixes read) : FixedBy ts fun doc es => es.mapM (read doc) := by
  induction ts with
  | nil =>
    refine ⟨[], fun doc es hes => ?_⟩
    cases hes
    exact Reading.gives_pure []
  | cons t ts ih =>
    obtain ⟨a, ha⟩ := h t List.mem_cons_self
    obtain ⟨as, has⟩ := ih fun s hs => h s (List.mem_cons_of_mem t hs)
    refine ⟨a :: as, fun doc es hes => ?_⟩
    cases hes with
    | cons he hes =>
      simp only [List.mapM_cons]
      exact (ha doc _ he).bind ((has doc _ hes).map (a :: ·))

theorem fixes_foldlM {read : List Char → β → Element → Reading β} {ts : List Twins}
    (h : ∀ t ∈ ts, ∀ b, t.Fixes fun doc => read doc b) (b : β) :
    FixedBy ts fun doc es => es.foldlM (read doc) b := by
  induction ts generalizing b with
  | nil =>
    refine ⟨b, fun doc es hes => ?_⟩
    cases hes
    exact Reading.gives_pure b
  | cons t ts ih =>
    obtain ⟨next, hnext⟩ := h t List.mem_cons_self b
    obtain ⟨last, hlast⟩ := ih (fun s hs => h s (List.mem_cons_of_mem t hs)) next
    refine ⟨last, fun doc es hes => ?_⟩
    cases hes with
    | cons he hes =>
      simp only [List.foldlM_cons]
      exact (hnext doc _ he).bind (hlast doc _ hes)

/-- What is found in a node and read there is fixed if each part of it is. -/
theorem fixes_find {t : Twins} {names : List String} (hnames : ∀ name ∈ names, Searchable name)
    {read : List Char → List Element → Reading α}
    (h : ∀ ts : List Twins, ts.map Twins.left = t.left.content.nodes names → FixedBy ts read) :
    t.Fixes fun doc e => (find doc e.content names : Except Fault (List Element)) >>= read doc := by
  obtain ⟨ts, hleft, hfind⟩ := t.find hnames
  obtain ⟨a, ha⟩ := h ts hleft
  refine ⟨a, fun doc e he => ?_⟩
  obtain ⟨found, hfound, hshown⟩ := hfind doc e he
  exact (Reading.gives_of_ok hfound).bind (ha doc found hshown)

/-- A reading of a body that fixes what is read of its text. -/
theorem fixes_innerText (t : Twins) {read : Element → List Char → Reading α}
    (h : ∃ a, ∀ doc e text, t.Shown doc e → Respaced false t.left.content.chars text →
      (read e text).Gives a) :
    t.Fixes fun doc e => (e.innerText doc : Except Fault (List Char)) >>= read e := by
  obtain ⟨a, ha⟩ := h
  refine ⟨a, fun doc e he => ?_⟩
  obtain ⟨text, htext, hspaced⟩ := he.innerText
  exact (Reading.gives_of_ok htext).bind (ha doc e text he hspaced)

/-! ## Islands -/

/-- The object that a text spells is given, with a note if there is none. -/
theorem gives_parse (island : Island) (body : List Char) (offset : Nat) :
    (island.parse body offset).Gives (Json.readObject body).toOption := by
  unfold Island.parse
  cases Json.readObject body with
  | ok o => exact Reading.gives_pure (some o)
  | error flaw => exact (Reading.gives_note _ _).bind (Reading.gives_pure none)

theorem toOption_readObject_respaced {s t : List Char} (h : Respaced false s t) :
    (Json.readObject s).toOption = (Json.readObject t).toOption := by
  have hsome : ∀ (x : Except Json.Flaw Json.Object) (o : Json.Object), x.toOption = some o ↔ x = .ok o :=
    fun x o => by cases x <;> simp [Except.toOption]
  refine Option.ext fun o => ?_
  rw [hsome, hsome]
  exact Json.readObject_respaced h o

/-- The object that the body of a style block spells, if it begins with a brace. -/
def styleObject? (body : List Char) : Option Json.Object :=
  if (trim body).head? == some '\x7b' then (Json.readObject (trim body)).toOption else none

theorem styleObject?_respaced {s t : List Char} (h : Respaced false s t) :
    styleObject? t = styleObject? s := by
  unfold styleObject?
  rw [h.trim.head?_eq, toOption_readObject_respaced h.trim]

/-- A style block gives its object, in whatever element it stands. -/
theorem gives_readStyle (island : Island) {doc body : List Char} {e : Element}
    (h : e.innerText doc = .ok body) : (island.readStyle doc e).Gives (styleObject? body) := by
  refine (Reading.gives_of_ok h).bind ?_
  unfold styleObject?
  by_cases hbrace : ((trim body).head? == some '\x7b') = true
  · simp only [if_pos hbrace]
    exact gives_parse island _ _
  · simp only [if_neg hbrace]
    exact Reading.gives_pure none

theorem fixes_readStyle (t : Twins) (island : Island) : t.Fixes (island.readStyle) := by
  refine ⟨styleObject? t.left.content.chars, fun doc e he => ?_⟩
  obtain ⟨text, htext, hspaced⟩ := he.innerText
  rw [← styleObject?_respaced hspaced]
  exact gives_readStyle island htext

theorem fixes_readConfig (t : Twins) (island : Island) : t.Fixes (island.readConfig) := by
  refine fixes_innerText t ⟨if (trim t.left.content.chars).isEmpty then none else
    (Json.readObject (trim t.left.content.chars)).toOption, fun doc e text he hspaced => ?_⟩
  have hbody := hspaced.trim
  have hnone : ∀ body : List Char, body.isEmpty = body.head?.isNone := fun body => by cases body <;> rfl
  have hempty : (trim text).isEmpty = (trim t.left.content.chars).isEmpty := by
    rw [hnone, hnone, hbody.head?_eq]
  simp only [hempty]
  by_cases hblank : (trim t.left.content.chars).isEmpty = true
  · rw [if_pos hblank, if_pos hblank]
    exact Reading.gives_pure none
  · rw [if_neg hblank, if_neg hblank, toOption_readObject_respaced hbody]
    exact gives_parse island _ _

/-! ## Blocks of a widget -/

theorem fixes_item (t : Twins) (widget : String) : t.Fixes fun doc => Item.ofElement doc widget := by
  unfold Item.ofElement
  cases hid : t.left.attrs.text? "id" with
  | none =>
    refine ⟨none, fun doc e he => ?_⟩
    simp only [he.attrs, hid]
    exact (Reading.gives_note _ _).bind (Reading.gives_pure none)
  | some id =>
    refine ⟨?item, fun doc e he => ?reads⟩
    case reads =>
      obtain ⟨body, hbody, hspaced⟩ := he.innerText
      simp only [he.attrs, hid]
      refine (Reading.gives_of_ok hbody).bind ?_
      rw [← visible_respaced hspaced]
      exact Reading.gives_pure _

/-- What follows on a reading that is fixed. -/
theorem Twins.Fixes.bind {t : Twins} {read : List Char → Element → Reading α}
    {next : List Char → Element → α → Reading β} (h : t.Fixes read)
    (hnext : ∀ a, t.Fixes fun doc e => next doc e a) :
    t.Fixes fun doc e => read doc e >>= next doc e := by
  obtain ⟨a, ha⟩ := h
  obtain ⟨b, hb⟩ := hnext a
  exact ⟨b, fun doc e he => (ha doc e he).bind (hb doc e he)⟩

theorem FixedBy.bind {ts : List Twins} {read : List Char → List Element → Reading α}
    {next : α → Reading β} (h : FixedBy ts read) (hnext : ∀ a, ∃ b, (next a).Gives b) :
    FixedBy ts fun doc es => read doc es >>= next := by
  obtain ⟨a, ha⟩ := h
  obtain ⟨b, hb⟩ := hnext a
  exact ⟨b, fun doc es hes => (ha doc es hes).bind hb⟩

theorem fixes_readItemList (t : Twins) (w : Widget) : t.Fixes fun doc => w.readItemList doc := by
  refine fixes_find (by decide) fun ts _ => ?_
  refine (fixes_mapM fun s _ => fixes_item s w.id).bind fun items => ?_
  exact ⟨_, Reading.gives_pure _⟩

theorem fixes_readItems (t : Twins) (w : Widget) : t.Fixes fun doc => w.readItems doc := by
  unfold Widget.readItems
  by_cases hkind : w.kind = .insights2
  · simp only [if_pos hkind]
    refine (fixes_readItemList t w).bind fun items => ?_
    refine (fixes_pure t { w with
      config := some (w.configOrNew.addItems (t.left.attrs.text? "title") items) }).of_eq fun doc e he => ?_
    simp only [he.attrs]
  · simp only [if_neg hkind]
    exact fixes_pure t w

theorem fixes_widgetConfig (t : Twins) (w : Widget) : t.Fixes fun doc => w.readConfig doc := by
  refine (fixes_readConfig t (.config w.id)).bind fun patch => ?_
  cases patch with
  | none => exact fixes_pure t w
  | some patch =>
    simp only
    cases w.mergeConfig patch with
    | mk merged mismatch =>
      cases mismatch with
      | none => exact fixes_pure t merged
      | some mismatch =>
        exact ⟨merged, fun doc e _ => (Reading.gives_note _ _).bind (Reading.gives_pure merged)⟩

theorem fixes_widgetStyle (t : Twins) (w : Widget) : t.Fixes fun doc => w.readStyle doc := by
  refine (fixes_readStyle t (.widgetStyle w.id)).bind fun o => ?_
  cases o with
  | none => exact fixes_pure t w
  | some o => exact fixes_pure t _

theorem fixes_readBlock (t : Twins) (w : Widget) : t.Fixes fun doc => Widget.readBlock doc w := by
  by_cases hconfig : t.left.name = "config"
  · refine (fixes_widgetConfig t w).of_eq fun doc e he => ?_
    simp only [Widget.readBlock, he.name, hconfig]
  by_cases hsource : t.left.name = "datasource"
  · refine (fixes_pure t { w with dataSource := some (.ofAttributes t.left.attrs) }).of_eq fun doc e he => ?_
    simp only [Widget.readBlock, he.name, he.attrs, hsource]
  by_cases hstyling : t.left.name = "styling"
  · refine (fixes_pure t (((t.left.attrs.first? ["tw", "class"]).map w.applyTokens).getD w)).of_eq
      fun doc e he => ?_
    simp only [Widget.readBlock, he.name, he.attrs, hstyling]
  by_cases hstyle : t.left.name = "style"
  · refine (fixes_widgetStyle t w).of_eq fun doc e he => ?_
    simp only [Widget.readBlock, he.name, hstyle]
  by_cases hitems : t.left.name = "items"
  · refine (fixes_readItems t w).of_eq fun doc e he => ?_
    simp only [Widget.readBlock, he.name, hitems]
  · refine (fixes_pure t w).of_eq fun doc e he => ?_
    unfold Widget.readBlock
    rw [he.name]
    split <;> simp_all

/-- The blocks of a widget fill it in. -/
theorem fixes_readBlocks (t : Twins) (w : Widget) : t.Fixes fun doc => w.readBlocks doc :=
  fixes_find (by decide) fun _ _ => fixes_foldlM (fun s _ w => fixes_readBlock s w) w

/-! ## Widgets of a grid -/

theorem fixes_note (t : Twins) (cause : Cause) (a : α) :
    t.Fixes fun _ e => Reading.note cause e.start >>= fun _ => pure a :=
  ⟨a, fun _ _ _ => (Reading.gives_note _ _).bind (Reading.gives_pure a)⟩

theorem fixes_identify (t : Twins) : t.Fixes fun _ => Widget.identify := by
  cases hid : t.left.attrs.text? "id" with
  | none =>
    refine (fixes_note t .widgetWithoutId none).of_eq fun doc e he => ?_
    simp only [Widget.identify, he.attrs, hid]
  | some id =>
    cases hkind : t.left.attrs.text? "type" with
    | some given =>
      cases hgiven : WidgetKind.ofText? given with
      | some kind =>
        refine (fixes_pure t (some (id, kind))).of_eq fun doc e he => ?_
        simp only [Widget.identify, he.attrs, hid, hkind, hgiven]
      | none =>
        refine (fixes_note t (.unknownKind id given) none).of_eq fun doc e he => ?_
        simp only [Widget.identify, he.attrs, hid, hkind, hgiven]
    | none =>
      cases htag : kindOfTag t.left.name with
      | some kind =>
        refine (fixes_pure t (some (id, kind))).of_eq fun doc e he => ?_
        simp only [Widget.identify, he.attrs, he.name, hid, hkind, htag]
      | none =>
        refine (fixes_note t (.widgetWithoutKind id) none).of_eq fun doc e he => ?_
        simp only [Widget.identify, he.attrs, he.name, hid, hkind, htag]

/-- **The widget that an element of a grid makes is fixed by its node.** -/
theorem fixes_ofGridElement (t : Twins) (column : Option Nat) :
    t.Fixes fun doc => Widget.ofGridElement doc column := by
  refine (fixes_identify t).bind fun found => ?_
  cases found with
  | none => exact fixes_pure t none
  | some found =>
    obtain ⟨id, kind⟩ := found
    obtain ⟨w, hw⟩ := fixes_readBlocks t
      { Widget.ofTag id kind t.left.attrs with
        gridStart := (Widget.gridStartOf t.left.attrs column).nonempty?
        width := (Widget.widthOf t.left.attrs).nonempty? }
    refine ⟨some w, fun doc e he => ?_⟩
    simp only [he.attrs]
    exact (hw doc e he).map some

end DashboardMarkup.Markup
