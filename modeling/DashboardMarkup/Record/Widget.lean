import DashboardMarkup.Widget.Basic

/-!
# Records of widgets

The JSON form of widgets and their queries. Absent values and empty lists are left out.
-/

namespace DashboardMarkup

open Json (field? strings natural)

/-- A member for a list that is not empty. -/
def listField? {α : Type} (key : String) (encode : α → Json) (items : List α) : Json.Object :=
  if items.isEmpty then [] else [(key, .array (items.map encode))]

/-- The word for the operator of a condition. -/
def Condition.word : Condition → String
  | compare op _ => op.sign
  | like _ => "like"
  | among _ => "in"
  | notAmong _ => "not in"
  | between _ _ => "between"

/-- The operands of a condition. -/
def Condition.operands : Condition → Json.Object
  | compare _ value => [("val", .string value)]
  | like pattern => [("val", .string pattern)]
  | among values => [("vals", strings values)]
  | notAmong values => [("vals", strings values)]
  | between start stop => [("start", .string start), ("end", .string stop)]

/-- The record of a filter. -/
def Filter.record (f : Filter) : Json :=
  .object (("col", .string f.column) :: ("op", .string f.condition.word) :: f.condition.operands)

/-- The record of a data source. -/
def DataSource.record (ds : DataSource) : Json :=
  .object
    (field? "schema" .string ds.schema ++ field? "table" .string ds.table ++
      field? "dimension" .string ds.dimension ++ listField? "dimensions" .string ds.dimensions ++
      field? "measure" .string ds.measure ++ listField? "measures" .string ds.measures ++
      field? "aggregation" .string ds.aggregation ++ field? "limit" natural ds.limit ++
      listField? "where" Filter.record ds.filters ++ field? "dateColumn" .string ds.dateColumn ++
      field? "orderBy" .string ds.orderBy)

namespace Breakpoints

/-- The record of the values for all widths of screen. -/
def record {α : Type} (encode : α → Json) (b : Breakpoints α) : Json :=
  .object [("desktop", encode b.desktop), ("tablet", encode b.tablet), ("mobile", encode b.mobile)]

/-- The record of the values for some widths of screen. -/
def partialRecord {α : Type} (encode : α → Json) (b : Breakpoints (Option α)) : Json :=
  .object
    (field? "desktop" encode b.desktop ++ field? "tablet" encode b.tablet ++
      field? "mobile" encode b.mobile)

end Breakpoints

/-- The record of styling. -/
def Styling.record (s : Styling) : Json :=
  .object s.members

/-- The record of a widget. The configuration stands under the key of its form. -/
def Widget.record (w : Widget) : Json :=
  .object
    (("id", .string w.id) :: ("type", .string w.kind.name) ::
      (field? "title" .string w.title ++ field? "row" .string w.row ++
        field? "span" (Breakpoints.record natural) w.span ++
        field? "gridStart" (Breakpoints.partialRecord natural) w.gridStart ++
        field? "order" .integer w.order ++ field? "heightPx" natural w.height ++
        field? "widthFr" (Breakpoints.partialRecord .string) w.width ++
        field? "dataSource" DataSource.record w.dataSource ++
        (w.config.map fun c => (c.key, Json.object c.members)).toList ++
        field? "styling" Styling.record w.styling ++ field? "containerStyle" .object w.container ++
        field? "preHtml" .string w.lead ++ field? "kpiTitlesOrder" strings w.titlesOrder))

end DashboardMarkup
