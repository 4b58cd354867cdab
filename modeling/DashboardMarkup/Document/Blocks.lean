import DashboardMarkup.Document.Island
import DashboardMarkup.Markup.Content
import DashboardMarkup.Widget.Basic

/-!
# Blocks of a widget

The elements inside a widget fill it in, one after another: its configuration, its data source, its
styling tokens, its container style and, for a list of insights, its items. A configuration that does
not fit the kind of the widget is noted and changes nothing.
-/

namespace DashboardMarkup

open Markup

/-- The elements that fill in a widget. -/
def blockNames : List String := ["config", "datasource", "styling", "style", "items"]

/-- The data source that the attributes of a tag spell. -/
def DataSource.ofAttributes (attrs : Attributes) : DataSource :=
  .ofBindings attrs

/-- A link, unless it has neither text nor target. -/
def Link.nonempty? (l : Link) : Option Link :=
  if l = {} then none else some l

/-- An insight from its element, which has to have an id. -/
def Item.ofElement (doc : List Char) (widget : String) (e : Element) : Reading (Option Item) := do
  let a := e.attrs
  match a.text? "id" with
  | none =>
    Reading.note (.itemWithoutId widget) e.start
    return none
  | some id =>
    let body := String.ofList (visible (← e.innerText doc))
    let link : Link :=
      { text := a.first? ["link-text", "linkText"],
        href := a.first? ["link-href", "linkHref", "href"] }
    return some
      { id
        variant := a.text? "variant"
        icon := a.text? "icon"
        label := (a.text? "label").or (DashboardMarkup.nonempty? body)
        link := link.nonempty?
        tail := a.text? "tail" }

namespace Config

/-- The configuration with a title, if there is one, and some more items. Only a list of insights has
places for them. -/
def addItems (config : Config) (heading : Option String) (more : List Item) : Config :=
  match config with
  | .insights2 title items extra => .insights2 (heading.or title) (items ++ more) extra
  | _ => config

end Config

namespace Widget

/-- Fills in the configuration. -/
def readConfig (doc : List Char) (w : Widget) (block : Element) : Reading Widget := do
  match ← (Island.config w.id).readConfig doc block with
  | none => return w
  | some patch =>
    match w.mergeConfig patch with
    | (w, none) => return w
    | (w, some mismatch) =>
      Reading.note (.misfitConfig w.id w.kind mismatch) block.start
      return w

/-- Fills in the container style. -/
def readStyle (doc : List Char) (w : Widget) (block : Element) : Reading Widget := do
  match ← (Island.widgetStyle w.id).readStyle doc block with
  | none => return w
  | some o => return { w with container := some ((w.container.getD []).overlay o) }

/-- The insights in an `<items>` element. -/
def readItemList (doc : List Char) (w : Widget) (block : Element) : Reading (List Item) := do
  let found ← (find doc block.content ["item"] : Except Fault (List Element))
  let items ← found.mapM (Item.ofElement doc w.id)
  return items.filterMap fun item => item

/-- Fills in the items of a list of insights. -/
def readItems (doc : List Char) (w : Widget) (block : Element) : Reading Widget := do
  if w.kind = .insights2 then
    let items ← w.readItemList doc block
    return { w with config := some (w.configOrNew.addItems (block.attrs.text? "title") items) }
  else return w

/-- Fills in what one block says. -/
def readBlock (doc : List Char) (w : Widget) (block : Element) : Reading Widget :=
  match block.name with
  | "config" => w.readConfig doc block
  | "datasource" => return { w with dataSource := some (.ofAttributes block.attrs) }
  | "styling" => return ((block.attrs.first? ["tw", "class"]).map w.applyTokens).getD w
  | "style" => w.readStyle doc block
  | "items" => w.readItems doc block
  | _ => return w

/-- Fills in what the blocks inside the element of a widget say. -/
def readBlocks (doc : List Char) (w : Widget) (e : Element) : Reading Widget := do
  let blocks ← (find doc e.content blockNames : Except Fault (List Element))
  blocks.foldlM (readBlock doc) w

end Widget

end DashboardMarkup
