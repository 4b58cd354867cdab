import DashboardMarkup.Document.Article
import DashboardMarkup.Proofs.Document.Filled
import DashboardMarkup.Proofs.Document.Grid
import DashboardMarkup.Proofs.Markup.Before

/-!
# Sections as trees

Sections count in every layout. What they give is said of the tree that they are written as, and each widget
that they make stands in a row, which those of a grid do not.

* `Node.article`, `Node.rowPart`: the widget of an article, and the row of a section.
* `gives_ofSections`: the sections of a well-formed tree are read as it says.
* `row_of_mem_rowParts`: their widgets stand in rows.
-/

namespace DashboardMarkup

open Markup Text

namespace Markup

/-! ## Articles -/

/-- The visible text in a node, unless it is empty. -/
def Node.visible? (n : Node) : Option String :=
  nonempty? (String.ofList (visible n.content.chars))

/-- A widget filled in by the blocks in a node. -/
def Node.filled (w : Widget) (n : Node) : Widget :=
  (n.value? fun doc => w.readBlocks doc).getD w

/-- The first title in an article outside its `<main>` element. -/
def Node.articleTitle (n : Node) : Option String :=
  ((n.content.nodes ["main", "p", "h1", "h2", "h3"]).filter (·.name != "main")).findSome? Node.visible?

/-- The kind of the widget that an article makes, from the attributes of its `<main>` element. -/
def articleKind (kind : SectionKind) (main : Option Attributes) : WidgetKind :=
  match kind with
  | .kpis => .kpi
  | .charts =>
    ((main.bind fun attrs => attrs.first? ["chart", "type"]).bind WidgetKind.ofText?).getD (.chart .bar)

/-- The widget with an id that an article makes in a row. -/
def Node.article (kind : SectionKind) (row id : String) (place : Nat) (n : Node) : Widget :=
  let main := (n.content.nodes ["main"]).head?
  let bindings := DataSource.bindings (main.getD n).content.chars
  let dataSource := DataSource.ofBindings bindings
  n.filled
    { id, kind := articleKind kind (main.map Node.attrs), row := some row
      title := (bindings.get? "title").or n.articleTitle
      dataSource := if dataSource.isEmpty then none else some dataSource
      order := some ((n.attrs.signed? "order").getD place)
      span := some (n.attrs.breakpoints "span" (.uniform 1))
      height := n.attrs.count? ["height"] }

/-- The widget that an article makes in a row, if it has an id. -/
def Node.article? (kind : SectionKind) (row : String) (place : Nat) (n : Node) : Option Widget :=
  (n.attrs.text? "id").map fun id => n.article kind row id place

/-- The heading of a section, before its first article. -/
def Node.sectionTitle (n : Node) : Option String :=
  (n.content.ahead ["article"] ["h1", "h2", "h3"]).head?.bind Node.visible?

/-- The row that a section of a kind makes. -/
def Node.rowPart (kind : SectionKind) (place : Nat) (n : Node) : RowPart :=
  let id := (n.attrs.text? "id").getD ("section-" ++ toString place)
  { id, row := Row.ofAttributes n.attrs (n.attrs.breakpoints "cols" kind.columns) n.sectionTitle
    widgets := ((n.content.nodes ["article"]).zipIdx 1).filterMap fun (a, place) => a.article? kind id place }

/-- The row that a section makes, if it is of a known kind. -/
def Node.rowPart? (place : Nat) (n : Node) : Option RowPart :=
  ((n.attrs.text? "data-type").bind SectionKind.ofText?).map fun kind => n.rowPart kind place

/-- The rows that the sections of a tree make. -/
def Forest.rowParts (f : Forest) : List RowPart :=
  ((f.nodes ["section"]).zipIdx 1).filterMap fun (n, place) => n.rowPart? place

/-! ## What is read of an article -/

section

variable {doc : List Char} {n : Node} {e : Element}

theorem Node.Shown.filled (h : n.Shown doc e) (hn : n.content.WellFormed) (w : Widget) :
    (w.readBlocks doc e).Gives (n.filled w) := by
  obtain ⟨w', hvalue, hgives⟩ := h.gives (fun t => fixes_readBlocks t w) hn
  unfold Node.filled
  rw [hvalue]
  exact hgives

/-- Blocks do not move a widget. -/
theorem row_filled (hn : n.content.WellFormed) (w : Widget) : (n.filled w).row = w.row := by
  obtain ⟨-, -, -, hrow, -⟩ := Widget.filled_of_readBlocks ((shown_alone n).filled hn w)
  exact hrow

theorem firstText?_shown {ns : List Node} {es : List Element} (h : List.Forall₂ (Node.Shown doc) ns es) :
    Article.firstText? doc es = .ok (ns.findSome? Node.visible?) := by
  induction h with
  | nil => rfl
  | @cons n e ns es hn _ ih =>
    unfold Article.firstText?
    rw [hn.innerText, List.findSome?_cons]
    unfold Node.visible?
    simp only [bind, Except.bind]
    cases nonempty? (String.ofList (visible n.content.chars)) with
    | some text => rfl
    | none => exact ih

theorem readTitle_shown (h : n.Shown doc e) (hn : n.content.WellFormed) :
    Article.readTitle doc e.content = .ok n.articleTitle := by
  obtain ⟨found, hfind, hshown⟩ := h.find hn
    (show ∀ name ∈ ["main", "p", "h1", "h2", "h3"], Searchable name by decide)
  unfold Article.readTitle
  rw [hfind]
  exact firstText?_shown (shown_filter hshown (· != "main"))

/-- The `<main>` element of an article shows its node. -/
theorem exists_main (h : n.Shown doc e) (hn : n.content.WellFormed) :
    ∃ main, findFirst doc e.content "main" = .ok main ∧
      Option.Rel (Node.Shown doc) (n.content.nodes ["main"]).head? main := by
  obtain ⟨found, hfind, hshown⟩ := h.find hn (show ∀ name ∈ ["main"], Searchable name by decide)
  refine ⟨found.head?, ?_, ?_⟩
  · unfold findFirst
    rw [hfind]
    rfl
  · generalize n.content.nodes ["main"] = ns at hshown
    cases hshown with
    | nil => exact .none
    | cons hfirst _ => exact .some hfirst

theorem queryText_shown (h : n.Shown doc e) {m : Option Node} {main : Option Element}
    (hmain : Option.Rel (Node.Shown doc) m main) :
    Article.queryText doc e.content main = .ok (m.getD n).content.chars := by
  cases hmain with
  | some hm => exact hm.innerText
  | none =>
    obtain ⟨before, behind, hdoc, hspan⟩ := h.content
    unfold Article.queryText Span.text
    rw [hspan, hdoc, Span.cut?_append]
    rfl

theorem gives_readKind (kind : SectionKind) (id : String) {m : Option Node} {main : Option Element}
    (hmain : Option.Rel (Node.Shown doc) m main) :
    (Article.readKind kind id main).Gives (articleKind kind (m.map Node.attrs)) := by
  unfold Article.readKind articleKind
  cases kind with
  | kpis => exact Reading.gives_pure _
  | charts =>
    cases hmain with
    | none => exact Reading.gives_pure _
    | @some n e hm =>
      simp only [Option.map_some, Option.bind_some, hm.attrs]
      cases n.attrs.first? ["chart", "type"] with
      | none => exact Reading.gives_pure _
      | some given =>
        simp only [Option.bind_some]
        cases WidgetKind.ofText? given with
        | some chart => exact Reading.gives_pure _
        | none => exact (Reading.gives_note _ _).bind (Reading.gives_pure _)

/-- **An article is read as its node says.** -/
theorem Node.Shown.article (h : n.Shown doc e) (hn : n.content.WellFormed) (kind : SectionKind)
    (row id : String) (place : Nat) :
    (Article.read doc kind row id place e).Gives (n.article kind row id place) := by
  obtain ⟨main, hfirst, hmain⟩ := exists_main h hn
  unfold Article.read
  refine (Reading.gives_of_ok hfirst).bind ?_
  refine (gives_readKind kind id hmain).bind ?_
  refine (Reading.gives_of_ok (readTitle_shown h hn)).bind ?_
  refine (Reading.gives_of_ok (queryText_shown h hmain)).bind ?_
  simp only [h.attrs]
  exact h.filled hn _

theorem Node.Shown.article? (h : n.Shown doc e) (hn : n.content.WellFormed) (kind : SectionKind)
    (row : String) (place : Nat) :
    (Article.read? doc kind row place e).Gives (n.article? kind row place) := by
  unfold Article.read? Node.article?
  rw [h.attrs]
  cases n.attrs.text? "id" with
  | none => exact (Reading.gives_note _ _).bind (Reading.gives_pure none)
  | some id => exact (h.article hn kind row id place).map some

/-! ## What is read of a section -/

/-- Elements that show some nodes do so one by one, each in its place. -/
theorem forall₂_zipIdx {R : Node → Element → Prop} {ns : List Node} {es : List Element}
    (h : List.Forall₂ R ns es) (first : Nat) :
    List.Forall₂ (fun p q => R p.1 q.1 ∧ p.2 = q.2) (ns.zipIdx first) (es.zipIdx first) := by
  induction h generalizing first with
  | nil => exact .nil
  | cons hn _ ih => exact .cons ⟨hn, rfl⟩ (ih (first + 1))

/-- Nodes that are read in their places, with those left out that give nothing. -/
theorem gives_places {α : Type} {ns : List Node} {es : List Element}
    (h : List.Forall₂ (Node.Shown doc) ns es) (hwell : ∀ n ∈ ns, n.content.WellFormed)
    {read : Nat → Element → Reading (Option α)} {value : Nat → Node → Option α}
    (hread : ∀ n e place, n.Shown doc e → n.content.WellFormed → (read place e).Gives (value place n)) :
    ((es.zipIdx 1).mapM fun (e, place) => read place e).Gives
      ((ns.zipIdx 1).map fun (n, place) => value place n) := by
  refine Reading.Gives.mapM ?_
  rw [List.forall₂_map_left_iff]
  refine (forall₂_zipIdx (forall₂_wellFormed h hwell) 1).imp ?_
  rintro ⟨n, place⟩ ⟨e, -⟩ ⟨⟨hn, hshown⟩, rfl⟩
  exact hread n e place hshown hn

theorem sectionTitle_shown (h : n.Shown doc e) (hn : n.content.WellFormed) {articles : List Element}
    (hfind : find doc e.content ["article"] = .ok articles) :
    RowPart.sectionTitle doc ⟨e.content.start, (articles.head?.map Element.start).getD e.content.stop⟩ =
      .ok n.sectionTitle := by
  obtain ⟨before, behind, rfl, hspan⟩ := h.content
  rw [hspan, find_forest (by decide) hn before behind] at hfind
  obtain rfl := Except.ok.inj hfind
  obtain ⟨es, hes, hseen⟩ := @find_ahead ["h1", "h2", "h3"] ["article"] (by decide) _ hn before behind
  unfold RowPart.sectionTitle Node.sectionTitle
  rw [hspan, hes]
  generalize n.content.ahead ["article"] ["h1", "h2", "h3"] = titles at hseen
  cases hseen with
  | nil => rfl
  | @cons t d _ _ hfirst _ =>
    have htext := hfirst.innerText
    rw [Element.innerText_asClosed] at htext
    simp only [bind, Except.bind, List.head?_cons, htext]
    rfl

theorem Node.Shown.rowPart (h : n.Shown doc e) (hn : n.content.WellFormed) (kind : SectionKind) (place : Nat) :
    (RowPart.ofKindedSection doc kind place e).Gives (n.rowPart kind place) := by
  obtain ⟨articles, hfind, hshown⟩ := h.find hn (show ∀ name ∈ ["article"], Searchable name by decide)
  have hwidgets := gives_places hshown (fun m hm => wellFormed_of_mem_nodes hn hm)
    fun m d index hm hwell => hm.article? hwell kind ((n.attrs.text? "id").getD ("section-" ++ toString place)) index
  unfold RowPart.ofKindedSection
  rw [h.attrs]
  refine (Reading.gives_of_ok hfind).bind ?_
  refine (Reading.gives_of_ok (sectionTitle_shown h hn hfind)).bind ?_
  have hrow := hwidgets.map fun widgets =>
    (⟨(n.attrs.text? "id").getD ("section-" ++ toString place),
      Row.ofAttributes n.attrs (n.attrs.breakpoints "cols" kind.columns) n.sectionTitle,
      widgets.filterMap fun w => w⟩ : RowPart)
  rw [List.filterMap_map] at hrow
  exact hrow

theorem Node.Shown.rowPart? (h : n.Shown doc e) (hn : n.content.WellFormed) (place : Nat) :
    (RowPart.ofSection doc place e).Gives (n.rowPart? place) := by
  unfold RowPart.ofSection Node.rowPart?
  rw [if_pos h.closed, h.attrs]
  cases (n.attrs.text? "data-type").bind SectionKind.ofText? with
  | none => exact Reading.gives_pure none
  | some kind => exact (h.rowPart hn kind place).map some

end

/-- **Sections are read as their tree says.** -/
theorem gives_ofSections {f : Forest} (hf : f.WellFormed) (before behind : List Char) :
    (RowPart.ofSections (before ++ (f.chars ++ behind)) ⟨size before, size before + size f.chars⟩).Gives
      f.rowParts := by
  have hshown := @shown_outermost (before ++ (f.chars ++ behind)) ["section"] f before behind rfl
  have hparts := gives_places hshown (fun n hn => wellFormed_of_mem_nodes hf hn)
    fun n e place hn hwell => hn.rowPart? hwell place
  have hall := hparts.map fun parts => parts.filterMap fun p => p
  rw [List.filterMap_map] at hall
  exact (Reading.gives_of_ok (find_forest (by decide) hf before behind)).bind hall

/-- **Each widget of a section stands in a row.** -/
theorem row_of_mem_rowParts {f : Forest} (hf : f.WellFormed) {p : RowPart} (hp : p ∈ f.rowParts) {w : Widget}
    (hw : w ∈ p.widgets) : w.row.isSome = true := by
  obtain ⟨⟨n, place⟩, hn, hpart⟩ := List.mem_filterMap.mp hp
  obtain ⟨kind, -, rfl⟩ := Option.map_eq_some_iff.mp hpart
  obtain ⟨⟨a, index⟩, ha, harticle⟩ := List.mem_filterMap.mp hw
  obtain ⟨id, -, rfl⟩ := Option.map_eq_some_iff.mp harticle
  have hwell : a.content.WellFormed :=
    wellFormed_of_mem_nodes (wellFormed_of_mem_nodes hf (List.fst_mem_of_mem_zipIdx hn))
      (List.fst_mem_of_mem_zipIdx ha)
  unfold Node.article
  rw [row_filled hwell]
  rfl

end Markup

end DashboardMarkup
