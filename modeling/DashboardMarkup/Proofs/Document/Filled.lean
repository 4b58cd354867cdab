import DashboardMarkup.Document.WidgetTag
import DashboardMarkup.Proofs.Document.Gives

/-!
# What blocks fill in

The blocks inside the element of a widget fill it in, one after another. None of them changes the id of the
widget or the row that it stands in, and its data source is that of the last block that is one.

* `keeps_of_readBlock`: a block that is no data source.
* `filled_of_readBlocks`: all blocks of an element.
-/

namespace DashboardMarkup

open Markup

/-- The names and attributes of some elements. -/
def tagsOf (es : List Element) : List (String × Attributes) :=
  es.map fun e => (e.name, e.attrs)

/-- The data source of the last block that is one. -/
def lastSource? (tags : List (String × Attributes)) : Option DataSource :=
  ((tags.filter (·.1 == "datasource")).getLast?).map fun tag => .ofAttributes tag.2

theorem lastSource?_source (attrs : Attributes) (tags : List (String × Attributes)) :
    lastSource? (("datasource", attrs) :: tags) = (lastSource? tags).or (some (.ofAttributes attrs)) := by
  have hsource : ("datasource" == "datasource") = true := by decide
  unfold lastSource?
  rw [List.filter_cons, if_pos hsource, List.getLast?_cons]
  cases (tags.filter (·.1 == "datasource")).getLast? with
  | none => rfl
  | some last => rfl

theorem lastSource?_other {name : String} (h : name ≠ "datasource") (attrs : Attributes)
    (tags : List (String × Attributes)) : lastSource? ((name, attrs) :: tags) = lastSource? tags := by
  have hother : ¬(name == "datasource") = true := fun heq => h (beq_iff_eq.mp heq)
  unfold lastSource?
  rw [List.filter_cons, if_neg hother]

namespace Widget

variable {doc : List Char} {w w' : Widget} {e : Element}

/-- A widget keeps its id, its row and its data source. -/
structure Keeps (w w' : Widget) : Prop where
  id : w'.id = w.id
  row : w'.row = w.row
  dataSource : w'.dataSource = w.dataSource

theorem Keeps.refl (w : Widget) : w.Keeps w :=
  ⟨rfl, rfl, rfl⟩

theorem keeps_mapStyling (w : Widget) (f : Styling → Styling) : w.Keeps (w.mapStyling f) := by
  unfold mapStyling
  simp only
  split
  · split
    · exact ⟨rfl, rfl, rfl⟩
    · exact ⟨rfl, rfl, rfl⟩
  · exact ⟨rfl, rfl, rfl⟩

theorem keeps_mergeConfig (w : Widget) (patch : Json.Object) : w.Keeps (w.mergeConfig patch).1 := by
  unfold mergeConfig
  split
  · exact ⟨rfl, rfl, rfl⟩
  · exact ⟨rfl, rfl, rfl⟩

/-- What a reading without a choice gives. -/
theorem eq_of_gives_pure {α : Type} {a b : α} (h : (pure a : Reading α).Gives b) : b = a :=
  h.unique (Reading.gives_pure a)

theorem keeps_of_readConfig (h : (w.readConfig doc e).Gives w') : w.Keeps w' := by
  obtain ⟨patch, -, h⟩ := Reading.exists_of_bind h
  cases patch with
  | none =>
    rw [eq_of_gives_pure h]
    exact .refl w
  | some patch =>
    have hmerge := keeps_mergeConfig w patch
    simp only at h
    cases hmerged : w.mergeConfig patch with
    | mk merged mismatch =>
      rw [hmerged] at h hmerge
      cases mismatch with
      | none =>
        rw [eq_of_gives_pure h]
        exact hmerge
      | some mismatch =>
        obtain ⟨-, -, h⟩ := Reading.exists_of_bind h
        rw [eq_of_gives_pure h]
        exact hmerge

theorem keeps_of_readStyle (h : (w.readStyle doc e).Gives w') : w.Keeps w' := by
  obtain ⟨o, -, h⟩ := Reading.exists_of_bind h
  cases o with
  | none =>
    rw [eq_of_gives_pure h]
    exact .refl w
  | some o =>
    rw [eq_of_gives_pure h]
    exact ⟨rfl, rfl, rfl⟩

theorem keeps_of_readItems (h : (w.readItems doc e).Gives w') : w.Keeps w' := by
  unfold readItems at h
  by_cases hkind : w.kind = .insights2
  · rw [if_pos hkind] at h
    obtain ⟨items, -, h⟩ := Reading.exists_of_bind h
    rw [eq_of_gives_pure h]
    exact ⟨rfl, rfl, rfl⟩
  · rw [if_neg hkind] at h
    rw [eq_of_gives_pure h]
    exact .refl w

/-- **A block that is no data source** leaves the one that is there. -/
theorem keeps_of_readBlock (h : (readBlock doc w e).Gives w') (hname : e.name ≠ "datasource") :
    w.Keeps w' := by
  unfold readBlock at h
  split at h
  · exact keeps_of_readConfig h
  · next heq => exact absurd heq hname
  · rw [eq_of_gives_pure h]
    cases e.attrs.first? ["tw", "class"] with
    | none => exact .refl w
    | some tokens => exact keeps_mapStyling w fun s => s.applyTokens tokens
  · exact keeps_of_readStyle h
  · exact keeps_of_readItems h
  · rw [eq_of_gives_pure h]
    exact .refl w

theorem eq_of_readSource (h : (readBlock doc w e).Gives w') (hname : e.name = "datasource") :
    w' = { w with dataSource := some (.ofAttributes e.attrs) } := by
  unfold readBlock at h
  rw [hname] at h
  exact eq_of_gives_pure h

/-- What some blocks make of a widget. -/
theorem filled_of_foldlM {blocks : List Element} (h : (blocks.foldlM (readBlock doc) w).Gives w') :
    w'.id = w.id ∧ w'.row = w.row ∧ w'.dataSource = (lastSource? (tagsOf blocks)).or w.dataSource := by
  induction blocks generalizing w with
  | nil =>
    rw [eq_of_gives_pure h]
    exact ⟨rfl, rfl, rfl⟩
  | cons b blocks ih =>
    rw [List.foldlM_cons] at h
    obtain ⟨next, hnext, h⟩ := Reading.exists_of_bind h
    obtain ⟨hid, hrow, hsource⟩ := ih h
    have htags : tagsOf (b :: blocks) = (b.name, b.attrs) :: tagsOf blocks := rfl
    rw [htags]
    by_cases hname : b.name = "datasource"
    · obtain rfl := eq_of_readSource hnext hname
      refine ⟨hid, hrow, ?_⟩
      rw [hsource, hname, lastSource?_source]
      cases lastSource? (tagsOf blocks) with
      | none => rfl
      | some last => rfl
    · have hkeeps := keeps_of_readBlock hnext hname
      refine ⟨hid.trans hkeeps.id, hrow.trans hkeeps.row, ?_⟩
      rw [hsource, hkeeps.dataSource, lastSource?_other hname]

/-- **All blocks of an element**: the last data source among them counts. -/
theorem filled_of_readBlocks (h : (w.readBlocks doc e).Gives w') :
    ∃ blocks, find doc e.content blockNames = .ok blocks ∧ w'.id = w.id ∧ w'.row = w.row ∧
      w'.dataSource = (lastSource? (tagsOf blocks)).or w.dataSource := by
  obtain ⟨blocks, hblocks, h⟩ := Reading.exists_of_bind h
  refine ⟨blocks, ?_, filled_of_foldlM h⟩
  obtain ⟨notes, hblocks⟩ := hblocks
  cases hfind : find doc e.content blockNames with
  | ok found =>
    rw [hfind] at hblocks
    exact congrArg Except.ok (Prod.mk.inj (Except.ok.inj hblocks)).1
  | error fault =>
    rw [hfind] at hblocks
    exact absurd hblocks (by rintro ⟨⟩)

end Widget

end DashboardMarkup
