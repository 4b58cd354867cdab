import DashboardMarkup.Check.Finding
import DashboardMarkup.Record.Canvas

/-!
# Records of dashboards

The JSON form of a dashboard with its heading and problems, and of findings and themes.
-/

namespace DashboardMarkup

open Json (field? natural)

/-- The members of the record of typography. -/
def Typography.members (t : Typography) : Json.Object :=
  field? "fontFamily" .string t.fontFamily ++ field? "fontSize" .double t.fontSize ++
    field? "fontWeight" .string t.fontWeight ++ field? "color" .string t.color ++
    field? "letterSpacing" .string t.letterSpacing ++ field? "lineHeight" .string t.lineHeight ++
    field? "marginTop" .double t.marginTop ++ field? "marginBottom" .double t.marginBottom ++
    field? "textAlign" .string t.textAlign ++ field? "textTransform" .string t.textTransform

/-- The record of a line of a heading. -/
def HeadingLine.record (l : HeadingLine) : Json :=
  .object (("text", .string l.text) :: l.typography.members)

/-- The record of a date picker. -/
def DatePicker.record (p : DatePicker) : Json :=
  .object
    (("visible", .bool p.visible) ::
      (field? "type" .string p.kind ++ field? "startDate" .string p.start ++
        field? "endDate" .string p.stop ++ field? "label" .string p.label ++
        field? "align" .string p.align ++ field? "showPresets" .bool p.showPresets))

/-- The record of a heading. -/
def Heading.record (h : Heading) : Json :=
  .object
    (field? "title" HeadingLine.record h.title ++ field? "subtitle" HeadingLine.record h.subtitle ++
      field? "backgroundColor" .string h.backgroundColor ++ field? "align" .string h.align ++
      field? "datePicker" DatePicker.record h.datePicker)

/-- The record of a period. -/
def DateRange.record (r : DateRange) : Json :=
  .object
    (("type", .string r.kind) ::
      (field? "startDate" .string r.start ++ field? "endDate" .string r.stop))

/-- The record of a problem. -/
def Problem.record (p : Problem) : Json :=
  .object [("line", natural p.position.line), ("column", natural p.position.column),
    ("message", .string p.cause.message), ("type", .string p.cause.kind.name)]

/-- The record of a dashboard. -/
def Dashboard.record (d : Dashboard) : Json :=
  .object
    ([("widgets", .array (d.widgets.map Widget.record)), ("gridConfig", d.canvas.record),
        ("errors", .array (d.problems.map Problem.record)), ("isValid", .bool d.isValid)] ++
      field? "dashboardTitle" .string d.title? ++ field? "dashboardSubtitle" .string d.subtitle? ++
      field? "headerConfig" Heading.record d.heading ++
      field? "globalFilters" (fun r => .object [("dateRange", DateRange.record r)]) d.period)

/-- The record of a finding. -/
def Finding.record (f : Finding) : Json :=
  .object
    [("target", .object [("kind", .string f.target.kind), ("id", .string f.target.id)]),
      ("message", .string f.message), ("severity", .string f.severity.name),
      ("rule", .string f.rule)]

/-- The record of all findings about a dashboard. -/
def Dashboard.findingsRecord (d : Dashboard) : Json :=
  .array (d.findings.map Finding.record)

/-- A text, or `null` where it is absent. -/
def textOrNull : Option String → Json
  | some s => .string s
  | none => .null

/-- The record of a theme. -/
def Theme.record (t : Theme) : Json :=
  .object
    [("name", .string t.name), ("fontFamily", .string t.fontFamily), ("primary", .string t.primary),
      ("background", .string t.background), ("surface", .string t.surface),
      ("border", .string t.border), ("textPrimary", .string t.textPrimary),
      ("textSecondary", .string t.textSecondary), ("bar", .string t.bar), ("line", .string t.line),
      ("area", .string t.area), ("pieBorder", .string t.pieBorder),
      ("gridBackground", .string t.gridBackground), ("gridBorder", .string t.gridBorder),
      ("shadow", .string t.shadow), ("radius", .double t.radius),
      ("gradient", textOrNull t.gradient), ("backdrop", textOrNull t.backdrop)]

end DashboardMarkup
