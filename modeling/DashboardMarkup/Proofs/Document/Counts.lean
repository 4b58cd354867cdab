import DashboardMarkup.Proofs.Document.Frame
import DashboardMarkup.Proofs.Document.Made

/-!
# Counts of columns and spans

No count of a layout is zero, whatever its attributes say: a count that is zero, has a sign or another unit, or
does not fit counts as absent, and every default is positive. Neither blocks nor themes touch the span of a
widget or the columns that it begins in.

* `Widget.Made.spanPositive`, `Widget.Made.startsPositive`, `Widget.Made.startsEverywhere`: what tags give stays.
* `Dashboard.counts_positive`: all counts of any dashboard.
-/

namespace DashboardMarkup

namespace Widget

variable {Start : Widget → Prop} {w : Widget}

/-- **What a tag gives and nothing fills in** holds of a widget on its whole way. -/
theorem Made.of_tag {P : Widget → Prop} (h : Made Start w) (hstart : ∀ w, Start w → P w)
    (hon : ∀ w base : Widget, P base → P (w.on base)) : P w :=
  h.invariant hstart (fun w _ _ _ hw hgives => eq_on_of_readBlock hgives ▸ hon _ w hw)
    fun w theme hw => eq_on_of_fillWidget w theme ▸ hon _ w hw

theorem Made.spanPositive (h : Made IsNew w) : w.SpanPositive :=
  h.of_tag (fun _ hw => hw.span) fun _ _ hbase => hbase

theorem Made.startsPositive (h : Made IsNew w) : w.StartsPositive :=
  h.of_tag (fun _ hw => hw.gridStart) fun _ _ hbase => hbase

theorem Made.startsEverywhere (h : Made IsNewInColumn w) : w.StartsEverywhere :=
  h.of_tag (fun _ hw => hw.starts) fun _ _ hbase => hbase

end Widget

namespace Dashboard

/-- **The counts of any dashboard are positive**: those of its layout and of the rows of its sections, the spans
of its widgets, and the columns that these begin in. The keys of numbered columns are numbers in their shortest
form; where there are such columns, every widget behind those of the sections begins in one on every width of
screen. -/
theorem counts_positive (text : List Char) :
    (parse text).canvas.layout.Counts ∧
    (∀ entry ∈ (parse text).canvas.sections, entry.2.columns.Positive) ∧
    (∀ w ∈ (parse text).widgets, w.SpanPositive ∧ w.StartsPositive) ∧
    ((parse text).canvas.layout.inner?.isSome = true →
      ∀ w ∈ (parse text).widgets.drop (sectionWidgets (Template.resolve text)), w.StartsEverywhere) := by
  have hmade := made_parse text
  refine ⟨hmade.layout, hmade.sections, fun w hw => ?_, fun hinner w hw => (hmade.columns hinner w hw).startsEverywhere⟩
  exact ⟨(hmade.widgets w hw).spanPositive, (hmade.widgets w hw).startsPositive⟩

end Dashboard

end DashboardMarkup
