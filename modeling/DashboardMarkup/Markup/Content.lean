import DashboardMarkup.Markup.Entity
import DashboardMarkup.Text.Blank

/-!
# Visible text

The text of a fragment as a reader sees it: without tags, with entities decoded, and with one space
wherever white space or a tag stands between words.
-/

namespace DashboardMarkup.Markup

/-- The text outside tags, with a space for each `<`. Inside a tag everything up to `>` is left out. -/
def outsideTags (inTag : Bool) : List Char → List Char
  | [] => []
  | c :: cs =>
    if c == '<' then ' ' :: outsideTags true cs
    else if inTag then outsideTags (c != '>') cs
    else c :: outsideTags false cs

/-- The visible text of a fragment. -/
def visible (fragment : List Char) : List Char :=
  Text.squeeze (Entity.decode (outsideTags false fragment))

end DashboardMarkup.Markup
