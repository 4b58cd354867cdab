import DashboardMarkup.Document.WidgetTag
import DashboardMarkup.Layout.Basic

/-!
# Sections and articles

A section of key figures or of charts is a row, and each article in it is a widget of that row. The
query of an article stands between double braces, in its `<main>` element if it has one. Sections count
in every layout. One without an id is numbered by its place among all sections; an article without an
id is noted and makes no widget.
-/

namespace DashboardMarkup

open Markup

/-- What the articles of a section show. -/
inductive SectionKind
  | kpis
  | charts
  deriving DecidableEq, Repr

namespace SectionKind

/-- The kind of section that a text names. -/
def ofText? : String → Option SectionKind
  | "kpis" => some kpis
  | "charts" => some charts
  | _ => none

/-- How many columns a section has unless it says so. -/
def columns : SectionKind → Breakpoints Nat
  | kpis => ⟨4, 2, 1⟩
  | charts => ⟨2, 1, 1⟩

end SectionKind

/-- A row, its key and its widgets. -/
structure RowPart where
  id : String
  row : Row
  widgets : List Widget

/-- The row that the attributes of a tag describe. -/
def Row.ofAttributes (attrs : Attributes) (columns : Breakpoints Nat) (title : Option String) : Row :=
  { title, columns, gapX := attrs.gapX?, gapY := attrs.gapY? }

/-- The rows of some parts, by key. -/
def rowsOf (parts : List RowPart) : Keyed Row :=
  parts.foldl (fun rows p => Keyed.insert rows p.id p.row) []

namespace Article

/-- The kind of the widget that an article makes. -/
def readKind (kind : SectionKind) (id : String) (main : Option Element) : Reading WidgetKind :=
  match kind, main with
  | .charts, some e =>
    match e.attrs.first? ["chart", "type"] with
    | some given =>
      match WidgetKind.ofText? given with
      | some chart => return chart
      | none => do
        Reading.note (.unknownChart id given) e.start
        return .chart .bar
    | none => return .chart .bar
  | .charts, none => return .chart .bar
  | .kpis, _ => return .kpi

/-- The first non-empty visible text among some elements. -/
def firstText? (doc : List Char) : List Element → Except Fault (Option String)
  | [] => return none
  | e :: es => do
    match nonempty? (String.ofList (visible (← e.innerText doc))) with
    | some text => return some text
    | none => firstText? doc es

/-- The title that stands in an article outside its `<main>` element. -/
def readTitle (doc : List Char) (inner : Span) : Except Fault (Option String) := do
  let found ← find doc inner ["main", "p", "h1", "h2", "h3"]
  firstText? doc (found.filter (·.name != "main"))

/-- The text in which the query of an article stands. -/
def queryText (doc : List Char) (inner : Span) (main : Option Element) :
    Except Fault (List Char) :=
  match main with
  | some e => e.innerText doc
  | none => inner.text doc

/-- The widget with an id that an article makes in a row; `place` is its place there, from one. -/
def read (doc : List Char) (kind : SectionKind) (row id : String) (place : Nat) (e : Element) :
    Reading Widget := do
  let main ← (findFirst doc e.content "main" : Except Fault (Option Element))
  let widgetKind ← readKind kind id main
  let title ← (readTitle doc e.content : Except Fault (Option String))
  let bindings := DataSource.bindings
    (← (queryText doc e.content main : Except Fault (List Char)))
  let dataSource := DataSource.ofBindings bindings
  let w : Widget :=
    { id, kind := widgetKind, row := some row
      title := (bindings.get? "title").or title
      dataSource := if dataSource.isEmpty then none else some dataSource
      order := some ((e.attrs.signed? "order").getD place)
      span := some (e.attrs.breakpoints "span" (.uniform 1))
      height := e.attrs.count? ["height"] }
  w.readBlocks doc e

/-- The widget that an article makes in a row, if it has an id. -/
def read? (doc : List Char) (kind : SectionKind) (row : String) (place : Nat) (e : Element) :
    Reading (Option Widget) := do
  match e.attrs.text? "id" with
  | none =>
    Reading.note (.articleWithoutId row) e.start
    return none
  | some id => return some (← read doc kind row id place e)

end Article

namespace RowPart

/-- The heading of a section, before its first article. -/
def sectionTitle (doc : List Char) (before : Span) : Except Fault (Option String) := do
  match (← find doc before ["h1", "h2", "h3"]).head? with
  | some e => return nonempty? (String.ofList (visible (← e.innerText doc)))
  | none => return none

/-- The row that a section of a kind makes; `place` is its place among all sections, from one. -/
def ofKindedSection (doc : List Char) (kind : SectionKind) (place : Nat) (e : Element) :
    Reading RowPart := do
  let id := (e.attrs.text? "id").getD ("section-" ++ toString place)
  let articles ← (find doc e.content ["article"] : Except Fault (List Element))
  let before : Span := ⟨e.content.start, (articles.head?.map Element.start).getD e.content.stop⟩
  let title ← (sectionTitle doc before : Except Fault (Option String))
  let row := Row.ofAttributes e.attrs (e.attrs.breakpoints "cols" kind.columns) title
  let widgets ← (articles.zipIdx 1).mapM fun (a, place) => Article.read? doc kind id place a
  return ⟨id, row, widgets.filterMap fun w => w⟩

/-- The row that a section makes, if it is of a known kind. -/
def ofSection (doc : List Char) (place : Nat) (e : Element) : Reading (Option RowPart) := do
  if e.closed then
    match (e.attrs.text? "data-type").bind SectionKind.ofText? with
    | some kind => return some (← ofKindedSection doc kind place e)
    | none => return none
  else Reading.stop (.unclosed e.name e.start)

/-- The rows that the sections of a dashboard make. -/
def ofSections (doc : List Char) (body : Span) : Reading (List RowPart) := do
  let found ← (find doc body ["section"] : Except Fault (List Element))
  let parts ← (found.zipIdx 1).mapM fun (e, place) => ofSection doc place e
  return parts.filterMap fun p => p

end RowPart

end DashboardMarkup
