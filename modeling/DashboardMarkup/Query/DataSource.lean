import DashboardMarkup.Markup.Attribute
import DashboardMarkup.Number.Whole
import DashboardMarkup.Query.Filter

/-!
# Data sources

The query behind a widget: where its rows come from, what is grouped and measured, and which rows
count. It is filled in by bindings, pairs of a key and a value, which stand in the attributes of a tag
or between double braces in a text. Some keys have a second spelling; the last binding of a field wins.
-/

namespace DashboardMarkup

/-- The query of a widget. -/
structure DataSource where
  schema : Option String := none
  table : Option String := none
  dimension : Option String := none
  dimensions : List String := []
  measure : Option String := none
  measures : List String := []
  aggregation : Option String := none
  limit : Option Nat := none
  filters : List Filter := []
  dateColumn : Option String := none
  orderBy : Option String := none
  deriving DecidableEq, Repr

/-- A text, unless it is empty. -/
def nonempty? (s : String) : Option String :=
  if s == "" then none else some s

namespace DataSource

/-- A data source without any field. -/
def isEmpty (ds : DataSource) : Bool :=
  ds == {}

/-- The pieces of a text between the commas outside parentheses; `depth` counts the parentheses that
are open, and is negative behind a closing one too many. -/
def topLevel (depth : Int) : List Char → List (List Char)
  | [] => [[]]
  | c :: cs =>
    if c == ',' && depth == 0 then [] :: topLevel depth cs
    else
      let depth := if c == '(' then depth + 1 else if c == ')' then depth - 1 else depth
      (topLevel depth cs).modifyHead (c :: ·)

/-- The trimmed pieces of a text between its top-level commas, blank ones left out. -/
def splitTopLevel (text : List Char) : List String :=
  ((topLevel 0 text).map Text.trim).filterMap fun piece => nonempty? (String.ofList piece)

/-- Writes a binding into its field; none for a key that names no field. A limit that is no count is
passed over. -/
def bind? (ds : DataSource) (binding : Attribute) : Option DataSource :=
  let value := trimmed binding.value
  let text := nonempty? value
  match trimmed binding.name with
  | "schema" => some { ds with schema := text }
  | "table" => some { ds with table := text }
  | "dimension" => some { ds with dimension := text }
  | "dimensions" => some { ds with dimensions := splitTopLevel value.toList }
  | "measure" => some { ds with measure := text }
  | "measures" => some { ds with measures := splitTopLevel value.toList }
  | "agg" | "aggregation" => some { ds with aggregation := text.map raised }
  | "limit" =>
    match Whole.count? value.toList with
    | some n => some { ds with limit := some n }
    | none => some ds
  | "where" => some { ds with filters := Filter.readAll value.toList }
  | "dateColumn" | "date-column" => some { ds with dateColumn := text }
  | "orderBy" | "order-by" => some { ds with orderBy := text }
  | _ => none

/-- A schema and a table, of which the table may be written as `schema.table`. A schema that is given
is kept; blank texts count as absent. -/
def splitTable (schema table : Option String) : Option String × Option String :=
  let schema := (schema.map trimmed).bind nonempty?
  let table := (table.map trimmed).bind nonempty?
  match table.bind fun t => Text.cut? ['.'] t.toList with
  | some (front, name) => (some (schema.getD (String.ofList front)), some (String.ofList name))
  | none => (schema, table)

/-- The data source of some bindings. -/
def ofBindings (bindings : Attributes) : DataSource :=
  let ds : DataSource := bindings.foldl (fun (ds : DataSource) b => (ds.bind? b).getD ds) {}
  let (schema, table) := splitTable ds.schema ds.table
  { ds with schema, table }

/-- The bindings between the first double braces of a text: keys and values with a colon between them,
and a semicolon between pairs. -/
def bindings (text : List Char) : Attributes :=
  match Text.cut? ['\x7b', '\x7b'] text with
  | none => []
  | some (_, after) =>
    let body := ((Text.cut? ['\x7d', '\x7d'] after).map Prod.fst).getD after
    (body.splitOn ';').filterMap fun pair => do
      let (key, value) ← Text.cutAt? (· == ':') pair
      let key ← nonempty? (String.ofList (Text.trim key))
      return ⟨key, String.ofList (Filter.unquote value)⟩

/-- The functions that may gather a measure. -/
def aggregates : List String := ["SUM", "COUNT", "AVG", "MIN", "MAX"]

/-- The expression that gathers a column, by its sum unless another function is asked for. -/
def measureOf? (column : String) (aggregate : Option String) : Option String :=
  (nonempty? (trimmed column)).map fun column =>
    let asked := raised (trimmed (aggregate.getD ""))
    let function := if aggregates.contains asked then asked else "SUM"
    function ++ "(" ++ column ++ ")"

end DataSource

end DashboardMarkup
