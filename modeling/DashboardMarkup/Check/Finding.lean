import DashboardMarkup.Document.Dashboard

/-!
# Findings

A dashboard that can be read may still be unlikely to be what its author meant: an id in use twice, a
row that is not declared, a group without widgets, a figure or chart without data. Findings are advice
and make no dashboard invalid.

They come rule by rule, and within a rule in the order of the widgets or groups.
-/

namespace DashboardMarkup

/-- A piece of advice. -/
inductive Finding
  | repeatedId (widget : String)
  | danglingRow (widget row : String)
  | emptyGroup (group : String)
  | missingData (kind : WidgetKind) (widget : String)
  deriving DecidableEq, Repr

/-- How much a finding matters. -/
inductive Severity
  | warning
  | info
  deriving DecidableEq, Repr

/-- The name of a severity. -/
def Severity.name : Severity → String
  | warning => "warning"
  | info => "info"

/-- What a finding is about. -/
inductive Target
  | widget (id : String)
  | group (id : String)
  deriving DecidableEq, Repr

namespace Target

/-- The id of a target. -/
def id : Target → String
  | widget id => id
  | group id => id

/-- The sort of thing that a target is. -/
def kind : Target → String
  | widget _ => "widget"
  | group _ => "group"

end Target

namespace Finding

/-- What a finding is about. -/
def target : Finding → Target
  | repeatedId widget => .widget widget
  | danglingRow widget _ => .widget widget
  | emptyGroup group => .group group
  | missingData _ widget => .widget widget

/-- How much a finding matters. -/
def severity : Finding → Severity
  | missingData _ _ => .info
  | _ => .warning

/-- The name of the rule behind a finding. -/
def rule : Finding → String
  | repeatedId _ => "duplicate-id"
  | danglingRow _ _ => "dangling-row"
  | emptyGroup _ => "empty-group"
  | missingData _ _ => "missing-datasource"

/-- The words for a finding. -/
def message : Finding → String
  | repeatedId widget =>
    "Widget id `" ++ widget ++
      "` is used more than once; edits and filters will hit the first one only."
  | danglingRow widget row => "Widget `" ++ widget ++ "` refers to undeclared row `" ++ row ++ "`."
  | emptyGroup group => "Group `" ++ group ++ "` has no widgets."
  | missingData kind widget => kind.name ++ " `" ++ widget ++ "` has no data source."

end Finding

/-- The members of a list that stand behind exactly one equal member, of those before the list too. -/
def secondUses (before : List String) : List String → List String
  | [] => []
  | id :: ids =>
    let more := secondUses (id :: before) ids
    if before.count id = 1 then id :: more else more

namespace Dashboard

/-- The ids that more than one widget has. -/
def repeatedIds (d : Dashboard) : List Finding :=
  (secondUses [] (d.widgets.map Widget.id)).map .repeatedId

/-- Whether a row is declared by a section or a layout by rows. -/
def declaresRow (d : Dashboard) (row : String) : Bool :=
  Keyed.has d.canvas.sections row || d.canvas.layout.rows?.any fun rows => Keyed.has rows row

/-- The rows of widgets that are not declared. -/
def danglingRows (d : Dashboard) : List Finding :=
  d.widgets.filterMap fun w => w.row.bind fun row =>
    if d.declaresRow row then none else some (.danglingRow w.id row)

/-- The groups of a grid without widgets. -/
def emptyGroups (d : Dashboard) : List Finding :=
  (d.canvas.layout.groups?.getD []).filterMap fun g =>
    if g.children.isEmpty then some (.emptyGroup g.id) else none

/-- Whether a widget has a query. -/
def hasData (w : Widget) : Bool :=
  w.dataSource.any fun ds => !ds.isEmpty

/-- The key figures and charts without a query. -/
def missingData (d : Dashboard) : List Finding :=
  d.widgets.filterMap fun w =>
    if w.kind.showsData && !hasData w then some (.missingData w.kind w.id) else none

/-- All findings about a dashboard. -/
def findings (d : Dashboard) : List Finding :=
  d.repeatedIds ++ (d.danglingRows ++ (d.emptyGroups ++ d.missingData))

end Dashboard

end DashboardMarkup
