import DashboardMarkup.Proofs.Document.Frame
import DashboardMarkup.Proofs.Document.Layouts
import DashboardMarkup.Proofs.Document.Whole

/-!
# Documents that can be read

A document is made unreadable by tags alone: where each search finds its elements closed, every part can be read,
in any layout and whatever its attributes and blocks say. So a document with a well-formed tree in its root always
gives a dashboard.

* `Node.Shown.exists_gives_ofRow`, `Node.Shown.exists_gives_column`: the parts of layouts by rows and by columns.
* `Node.Shown.exists_gives_placement`: a root is laid out in any mode.
* `Dashboard.exists_gives_of_root`: the document of a root is read.
-/

namespace DashboardMarkup

open Markup Reading

namespace Reading

variable {α β : Type}

/-- Whatever follows on a value, it is enough that it can be read. -/
theorem Gives.exists_bind {x : Reading α} {f : α → Reading β} {a : α} (hx : x.Gives a)
    (hf : ∃ b, (f a).Gives b) : ∃ b, (x >>= f).Gives b := by
  obtain ⟨b, hb⟩ := hf
  exact ⟨b, hx.bind hb⟩

/-- A list can be read if its members can. -/
theorem exists_gives_mapM {f : α → Reading β} {as : List α} (h : ∀ a ∈ as, ∃ b, (f a).Gives b) :
    ∃ bs, (as.mapM f).Gives bs := by
  induction as with
  | nil => exact ⟨[], gives_pure []⟩
  | cons a as ih =>
    obtain ⟨⟨b, hb⟩, h⟩ := List.forall_mem_cons.mp h
    obtain ⟨bs, hbs⟩ := ih h
    rw [List.mapM_cons]
    exact ⟨b :: bs, hb.bind (hbs.map (b :: ·))⟩

end Reading

variable {doc : List Char} {n : Node} {e : Element}

theorem Placement.exists_gives_readMode (attrs : Attributes) (start : Nat) :
    ∃ mode, (Placement.readMode attrs start).Gives mode := by
  unfold Placement.readMode
  split
  · exact ⟨_, gives_pure _⟩
  · split
    · exact ⟨_, gives_pure _⟩
    · exact ⟨_, (gives_note _ _).bind (gives_pure _)⟩

namespace RowPart

theorem exists_gives_readId (place : Nat) (e : Element) : ∃ id, (readId place e).Gives id := by
  unfold readId
  split
  · exact ⟨_, gives_pure _⟩
  · exact ⟨_, (gives_note _ _).bind (gives_pure _)⟩

theorem exists_gives_readColumns (id : String) (e : Element) : ∃ columns, (readColumns id e).Gives columns := by
  unfold readColumns
  simp only
  split
  · exact ⟨_, (gives_note _ _).bind (gives_pure _)⟩
  · exact ⟨_, gives_pure _⟩

end RowPart

namespace Markup

/-! ## Elements that show nodes of a tree -/

/-- Each element of a search in a well-formed tree shows a node with a well-formed tree in it. -/
theorem forall_shown {ns : List Node} {es : List Element} (h : List.Forall₂ (Node.Shown doc) ns es)
    (hwell : ∀ m ∈ ns, m.content.WellFormed) : ∀ d ∈ es, ∃ m : Node, m.Shown doc d ∧ m.content.WellFormed := by
  intro d hd
  obtain ⟨m, hm, hshown⟩ := exists_of_mem_left h.flip hd
  exact ⟨m, hshown, hwell m hm⟩

/-- The span of the content of an element that shows a node. -/
theorem Node.Shown.fits_content (h : n.Shown doc e) : e.content.Fits doc := by
  obtain ⟨before, behind, hdoc, hspan⟩ := h.content
  exact ⟨before, n.content.chars, behind, hdoc, by rw [hspan], by rw [hspan]⟩

/-! ## Layouts -/

theorem Node.Shown.exists_gives_widget (h : n.Shown doc e) (hn : n.content.WellFormed) (column : Option Nat) :
    ∃ made, (Widget.ofGridElement doc column e).Gives made := by
  obtain ⟨made, -, hgives⟩ := h.gives (fun t => fixes_ofGridElement t column) hn
  exact ⟨made, hgives⟩

theorem exists_gives_ofGridElements (column : Option Nat) {es : List Element}
    (h : ∀ d ∈ es, ∃ m : Node, m.Shown doc d ∧ m.content.WellFormed) :
    ∃ made, (Widget.ofGridElements doc column es).Gives made := by
  obtain ⟨made, hmade⟩ := exists_gives_mapM fun d hd => by
    obtain ⟨m, hm, hwell⟩ := h d hd
    exact hm.exists_gives_widget hwell column
  exact ⟨_, hmade.map fun made => made.filterMap fun w => w⟩

/-- **A row can be read**: the markup before each of its elements stands in the document. -/
theorem Node.Shown.exists_gives_ofRow (h : n.Shown doc e) (hn : n.content.WellFormed) (place : Nat) :
    ∃ part, (RowPart.ofRow doc place e).Gives part := by
  obtain ⟨found, hfind, hshown⟩ := h.find hn (show ∀ name ∈ widgetNames, Searchable name by decide)
  have hnodes := forall_shown hshown fun m hm => wellFormed_of_mem_nodes hn hm
  have hfound := found_of_find h.fits_content hfind
  have hleads := RowPart.fits_of_mem_withLeads h.fits_content.boundary_start hfound.sited
    (fun d hd => (hfound.within d hd).start_le) hfound.ordered
  obtain ⟨id, hid⟩ := RowPart.exists_gives_readId place e
  obtain ⟨columns, hcolumns⟩ := RowPart.exists_gives_readColumns id e
  have hwidgets : ∃ made, ((withLeads e.content.start found).mapM fun p =>
      Widget.ofRowElement doc id p.1 p.2).Gives made := by
    refine exists_gives_mapM fun p hp => ?_
    obtain ⟨hfits, hmem⟩ := hleads p hp
    obtain ⟨lead, hlead⟩ := hfits.text_eq_ok
    obtain ⟨m, hm, hwell⟩ := hnodes p.2 hmem
    obtain ⟨made, hmade⟩ := hm.exists_gives_widget hwell none
    show ∃ made, (Widget.ofRowElement doc id p.1 p.2).Gives made
    rw [Widget.ofRowElement_eq doc id p.1 none p.2]
    exact ⟨_, (gives_of_ok hlead).bind (hmade.map _)⟩
  obtain ⟨made, hmade⟩ := hwidgets
  unfold RowPart.ofRow
  rw [if_pos h.closed]
  exact ⟨_, hid.bind (hcolumns.bind ((gives_of_ok hfind).bind (hmade.bind (gives_pure _))))⟩

theorem Node.Shown.exists_gives_column (h : n.Shown doc e) (hn : n.content.WellFormed) :
    ∃ part, (ColumnPart.read doc e).Gives part := by
  unfold ColumnPart.read
  rw [if_pos h.closed]
  simp only
  split
  · exact ⟨_, (gives_note _ _).bind (gives_pure _)⟩
  · next number _ =>
    obtain ⟨found, hfind, hshown⟩ := h.find hn (show ∀ name ∈ widgetNames, Searchable name by decide)
    obtain ⟨made, hmade⟩ := exists_gives_ofGridElements (some number)
      (forall_shown hshown fun m hm => wellFormed_of_mem_nodes hn hm)
    exact ⟨_, (gives_of_ok hfind).bind (hmade.bind (gives_pure _))⟩

/-- **A root can be laid out in any mode.** -/
theorem Node.Shown.exists_gives_placement (h : n.Shown doc e) (hn : n.content.WellFormed) (mode : LayoutMode) :
    ∃ placement, (Placement.read doc n.attrs e.content mode).Gives placement := by
  cases mode with
  | perRow =>
    obtain ⟨found, hfind, hshown⟩ := h.find hn (show ∀ name ∈ ["row"], Searchable name by decide)
    have hnodes := forall_shown hshown fun m hm => wellFormed_of_mem_nodes hn hm
    obtain ⟨parts, hparts⟩ : ∃ parts, ((found.zipIdx 1).mapM fun p =>
        RowPart.ofRow doc p.2 p.1).Gives parts := by
      refine exists_gives_mapM fun p hp => ?_
      obtain ⟨m, hm, hwell⟩ := hnodes p.1 (List.fst_mem_of_mem_zipIdx hp)
      exact hm.exists_gives_ofRow hwell p.2
    exact ⟨_, (gives_of_ok hfind).bind (hparts.bind (gives_pure _))⟩
  | grid =>
    obtain ⟨before, behind, rfl, hspan⟩ := h.content
    show ∃ placement, (Placement.readGrid _ n.attrs e.content).Gives placement
    rw [hspan]
    exact ⟨_, gives_readGrid hn before behind n.attrs⟩
  | perColumn =>
    obtain ⟨found, hfind, hshown⟩ := h.find hn (show ∀ name ∈ ["column"], Searchable name by decide)
    have hnodes := forall_shown hshown fun m hm => wellFormed_of_mem_nodes hn hm
    show ∃ placement, (Placement.readColumns doc n.attrs e.content).Gives placement
    unfold Placement.readColumns
    by_cases hnone : found.isEmpty = true
    · obtain ⟨loose, hloose, hwidgets⟩ := h.find hn (show ∀ name ∈ widgetNames, Searchable name by decide)
      obtain ⟨made, hmade⟩ := exists_gives_ofGridElements none
        (forall_shown hwidgets fun m hm => wellFormed_of_mem_nodes hn hm)
      refine (gives_of_ok hfind).exists_bind ?_
      rw [if_pos hnone]
      exact ⟨_, ((gives_of_ok hloose).bind hmade).bind (gives_pure _)⟩
    · obtain ⟨parts, hparts⟩ : ∃ parts, (found.mapM (ColumnPart.read doc)).Gives parts := by
        refine exists_gives_mapM fun d hd => ?_
        obtain ⟨m, hm, hwell⟩ := hnodes d hd
        exact hm.exists_gives_column hwell
      refine (gives_of_ok hfind).exists_bind ?_
      rw [if_neg hnone]
      exact ⟨_, hparts.bind (gives_pure _)⟩

end Markup

/-- **A document with a well-formed tree in its root can be read**, whatever stands around the root and whatever its
attributes are. -/
theorem Dashboard.exists_gives_of_root {root : Node}
    (hfind : Root.find doc = .ok ⟨root.attrs, e.start, e.content⟩) (hshown : root.Shown doc e)
    (hwell : root.content.WellFormed) : ∃ d, (Dashboard.readDocument doc).Gives d := by
  have hheading := gives_heading hshown hwell e.start
  have hobjects := gives_canvasObjects hshown hwell
  obtain ⟨mode, hmode⟩ := Placement.exists_gives_readMode root.attrs e.start
  obtain ⟨placement, hplacement⟩ := hshown.exists_gives_placement hwell mode
  obtain ⟨before, behind, hdoc, hspan⟩ := hshown.content
  have hsections := gives_ofSections hwell before behind
  rw [← hdoc, ← hspan] at hsections
  unfold Dashboard.readDocument
  refine (gives_of_ok hfind).exists_bind (hheading.exists_bind ((gives_period root e.start).exists_bind ?_))
  exact hobjects.exists_bind (hsections.exists_bind (hmode.exists_bind ⟨_, hplacement.bind (gives_pure _)⟩))

end DashboardMarkup
