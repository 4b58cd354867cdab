import DashboardMarkup.Style.Styling
import DashboardMarkup.Widget.Kind

/-!
# Configurations

The configuration of a widget has a form that depends on its kind. A key figure has its styling among
the members of its configuration, a chart has it in a member of its own, and a list of insights has a
title and items. Each keeps what it does not know as free members, and for all other kinds there is
nothing but free members.

A configuration is changed by laying the members of an object over its own and reading the result
again (`merge`). If that does not have the right shape, the change is refused as a whole.
-/

namespace DashboardMarkup

/-- A link of an insight. -/
structure Link where
  text : Option String := none
  href : Option String := none
  deriving DecidableEq, Repr

/-- One insight of a list. -/
structure Item where
  id : String
  variant : Option String := none
  icon : Option String := none
  label : Option String := none
  link : Option Link := none
  tail : Option String := none
  deriving DecidableEq, Repr

/-- The configuration of a widget. -/
inductive Config
  | kpi (styling : Styling) (extra : Json.Object)
  | chart (kind : ChartKind) (styling : Option Styling) (extra : Json.Object)
  | insights2 (title : Option String) (items : List Item) (extra : Json.Object)
  | plain (extra : Json.Object)

namespace Link

/-- The keys of a link in the order in which they are written. -/
def keys : List String := ["text", "href"]

/-- The members of the JSON object of a link. -/
def members (l : Link) : Json.Object :=
  Json.field? "text" .string l.text ++ Json.field? "href" .string l.href

/-- Reads a member of a link. -/
def setMember (key : String) (v : Json) (l : Link) : Except Json.Mismatch Link :=
  match key with
  | "text" => (Json.optional Json.asText v).map fun t => { l with text := t }
  | "href" => (Json.optional Json.asText v).map fun t => { l with href := t }
  | _ => .ok l

/-- Reads a link. -/
def ofJson (v : Json) : Except Json.Mismatch Link :=
  Json.asFullRecord "ItemLink" keys [] setMember {} v

end Link

namespace Item

/-- The keys of an insight in the order in which they are written. -/
def keys : List String := ["id", "variant", "icon", "label", "link", "tail"]

/-- The members of the JSON object of an insight. -/
def members (i : Item) : Json.Object :=
  ("id", .string i.id) :: (Json.field? "variant" .string i.variant ++
    Json.field? "icon" .string i.icon ++ Json.field? "label" .string i.label ++
    Json.field? "link" (fun l => .object l.members) i.link ++ Json.field? "tail" .string i.tail)

/-- Reads a member of an insight. -/
def setMember (key : String) (v : Json) (i : Item) : Except Json.Mismatch Item :=
  match key with
  | "id" => (Json.asText v).map fun t => { i with id := t }
  | "variant" => (Json.optional Json.asText v).map fun t => { i with variant := t }
  | "icon" => (Json.optional Json.asText v).map fun t => { i with icon := t }
  | "label" => (Json.optional Json.asText v).map fun t => { i with label := t }
  | "link" => (Json.optional Link.ofJson v).map fun l => { i with link := l }
  | "tail" => (Json.optional Json.asText v).map fun t => { i with tail := t }
  | _ => .ok i

/-- Reads an insight, which has to have an id. -/
def ofJson (v : Json) : Except Json.Mismatch Item :=
  Json.asFullRecord "InsightItem" keys ["id"] setMember { id := "" } v

end Item

namespace Config

/-- The empty configuration of a kind. -/
def forKind : WidgetKind → Config
  | .kpi => .kpi {} []
  | .chart kind => .chart kind none []
  | .insights2 => .insights2 none [] []
  | .plain _ => .plain []

/-- The key under which a configuration is written. -/
def key : Config → String
  | .kpi _ _ => "kpiConfig"
  | .chart .bar _ _ => "barConfig"
  | .chart .line _ _ => "lineConfig"
  | .chart .pie _ _ => "pieConfig"
  | .chart .area _ _ => "areaConfig"
  | .chart .stackedBar _ _ => "stackedBarConfig"
  | .chart .groupedBar _ _ => "groupedBarConfig"
  | .chart .stackedLines _ _ => "stackedLinesConfig"
  | .chart .radialStacked _ _ => "radialStackedConfig"
  | .chart .pivotBar _ _ => "pivotBarConfig"
  | .insights2 _ _ _ => "insights2Config"
  | .plain _ => "config"

/-- The members of the JSON object of a configuration, the free ones last. -/
def members : Config → Json.Object
  | .kpi styling extra => styling.members ++ extra
  | .chart _ styling extra =>
    Json.field? "styling" (fun s => .object s.members) styling ++ extra
  | .insights2 title items extra =>
    Json.field? "title" .string title ++
      (if items.isEmpty then [] else [("items", .array (items.map fun i => .object i.members))]) ++
      extra
  | .plain extra => extra

/-- The styling that a configuration holds. -/
def styling? : Config → Option Styling
  | .kpi styling _ => some styling
  | .chart _ styling _ => styling
  | .insights2 _ _ _ => none
  | .plain _ => none

/-- The configuration with its styling changed; an absent one is begun. None for a configuration that
has no place for styling. -/
def mapStyling? (f : Styling → Styling) : Config → Option Config
  | .kpi styling extra => some (.kpi (f styling) extra)
  | .chart kind styling extra => some (.chart kind (some (f (styling.getD {}))) extra)
  | .insights2 _ _ _ => none
  | .plain _ => none

/-- Reads the members of a key figure: settings are sorted out first, the others stay free. -/
def kpiOfMembers (members : Json.Object) : Except Json.Mismatch Config := do
  let isField (m : String × Json) := (Styling.Field.ofKey? m.1).isSome
  let styling ← Json.setMembers (Styling.setMember .counted) {} (members.filter isField)
  return .kpi styling (members.filter (!isField ·))

/-- Reads the members of a chart. -/
def chartOfMembers (kind : ChartKind) (members : Json.Object) : Except Json.Mismatch Config := do
  let styling ← match members.find? "styling" with
    | some v => Json.optional Styling.ofJson v
    | none => .ok none
  return .chart kind styling (members.erase "styling")

/-- Reads the members of a list of insights. -/
def insights2OfMembers (members : Json.Object) : Except Json.Mismatch Config := do
  let items ← match members.find? "items" with
    | some v => Json.asList Item.ofJson v
    | none => .ok []
  let title ← match members.find? "title" with
    | some v => Json.optional Json.asText v
    | none => .ok none
  return .insights2 title items ((members.erase "items").erase "title")

/-- The configuration with the members of an object laid over its own. -/
def merge (config : Config) (patch : Json.Object) : Except Json.Mismatch Config :=
  let laid := (Json.Object.ofMembers config.members).overlay patch
  match config with
  | .kpi _ _ => kpiOfMembers laid
  | .chart kind _ _ => chartOfMembers kind laid
  | .insights2 _ _ _ => insights2OfMembers laid
  | .plain extra => .ok (.plain (extra.overlay patch))

end Config

end DashboardMarkup
