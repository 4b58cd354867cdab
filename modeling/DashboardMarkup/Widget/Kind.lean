import DashboardMarkup.Text.Blank
import DashboardMarkup.Text.Case

/-!
# Kinds of widgets

Charts share one form of configuration, key figures and lists of insights have their own, and all other
kinds have none.

* `ofText?_name`: every kind is read from its own name.
-/

namespace DashboardMarkup

/-- The kinds of charts. -/
inductive ChartKind
  | bar
  | line
  | pie
  | area
  | stackedBar
  | groupedBar
  | stackedLines
  | radialStacked
  | pivotBar
  deriving DecidableEq, Repr

/-- The kinds without a configuration of their own. -/
inductive PlainKind
  | insights
  | alerts
  | recommendations
  | insightsHero
  | treemap
  | scatter
  | funnel
  deriving DecidableEq, Repr

/-- The kinds of widgets. -/
inductive WidgetKind
  | kpi
  | insights2
  | chart (kind : ChartKind)
  | plain (kind : PlainKind)
  deriving DecidableEq, Repr

namespace WidgetKind

/-- All kinds. -/
def all : List WidgetKind :=
  [.chart .bar, .chart .line, .chart .pie, .chart .area, .kpi, .plain .insights, .plain .alerts,
    .plain .recommendations, .plain .insightsHero, .insights2, .chart .stackedBar,
    .chart .groupedBar, .chart .stackedLines, .chart .radialStacked, .chart .pivotBar,
    .plain .treemap, .plain .scatter, .plain .funnel]

/-- The name of a kind. -/
def name : WidgetKind → String
  | .kpi => "kpi"
  | .insights2 => "insights2"
  | .chart .bar => "bar"
  | .chart .line => "line"
  | .chart .pie => "pie"
  | .chart .area => "area"
  | .chart .stackedBar => "stackedbar"
  | .chart .groupedBar => "groupedbar"
  | .chart .stackedLines => "stackedlines"
  | .chart .radialStacked => "radialstacked"
  | .chart .pivotBar => "pivotbar"
  | .plain .insights => "insights"
  | .plain .alerts => "alerts"
  | .plain .recommendations => "recommendations"
  | .plain .insightsHero => "insightsHero"
  | .plain .treemap => "treemap"
  | .plain .scatter => "scatter"
  | .plain .funnel => "funnel"

/-- The kind that a text names, in any case of letters. A comparison of bars is a grouped bar chart. -/
def ofText? (text : String) : Option WidgetKind :=
  let asked := lowered (trimmed text)
  if asked == "comparebar" then some (.chart .groupedBar)
  else all.find? fun kind => lowered kind.name == asked

/-- Whether a kind is a chart. -/
def isChart : WidgetKind → Bool
  | .chart _ => true
  | _ => false

/-- Whether a kind keeps its styling in its configuration, and shows data. -/
def showsData (kind : WidgetKind) : Bool :=
  kind == .kpi || kind.isChart

theorem mem_all (kind : WidgetKind) : kind ∈ all := by
  cases kind with
  | kpi => decide
  | insights2 => decide
  | chart c => cases c <;> decide
  | plain p => cases p <;> decide

theorem ofText?_name (kind : WidgetKind) : ofText? kind.name = some kind := by
  cases kind with
  | kpi => decide +kernel
  | insights2 => decide +kernel
  | chart c => cases c <;> decide +kernel
  | plain p => cases p <;> decide +kernel

end WidgetKind

end DashboardMarkup
