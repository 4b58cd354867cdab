import DashboardMarkup.Document.WidgetTag
import DashboardMarkup.Edit.Address
import DashboardMarkup.Edit.Lines
import DashboardMarkup.Json.Printer
import DashboardMarkup.Json.Reader

/-!
# Changing a document

Edits change the text of a document in place: a tag that is edited is written anew from its attributes,
a block of a widget is written over or begun, a widget is cut out with its lines. All other text stays
as it is. A document that has a fault, or no element to be edited, comes back unchanged.
-/

namespace DashboardMarkup.Edit

open Markup

/-- Writes the tag of an element anew, with changed attributes. -/
def retag (e : Element) (changes : List Attributes.Change) : Splice :=
  ⟨⟨e.start, e.openEnd⟩,
    renderOpen e.name { attrs := e.attrs.applyAll changes, selfClosing := e.selfClosing }⟩

/-- A self-closing tag. -/
def selfClosingTag (name : String) (attrs : Attributes) : List Char :=
  renderOpen name { attrs, selfClosing := true }

/-- Where a new child of an element goes. -/
inductive Place
  | first
  | last
  deriving DecidableEq, Repr

/-- Inserts a text as a child of an element, on a line of its own. A self-closing element is written as
a paired one; an element without its close tag is left alone. -/
def insertChild (doc : List Char) (e : Element) (place : Place) (text : List Char) :
    Except Fault (List Splice) := do
  let indent ← indentAt doc e.start
  let line := '\n' :: (indent ++ ' ' :: ' ' :: Text.trim text)
  match e.body with
  | .selfClosing =>
    let opening := renderOpen e.name { attrs := e.attrs, selfClosing := false }
    return [⟨e.span, opening ++ (line ++ '\n' :: (indent ++ renderClose e.name))⟩]
  | .paired inner _ =>
    let offset := match place with
      | .first => inner.start
      | .last => inner.stop
    return [⟨⟨offset, offset⟩, line⟩]
  | .unclosed => return []

/-! ## Attributes -/

/-- The elements whose attributes can be set. -/
def nodeNames : List String := widgetNames ++ ["group"]

/-- The splices that set an attribute of every widget and group with an id. -/
def setAttributePlan (doc : List Char) (id name value : String) : Except Fault (List Splice) := do
  return (← elementsById doc nodeNames id).map fun e => retag e [.set name value]

/-- Sets an attribute of every widget and group with an id. -/
def setAttribute (doc : List Char) (id name value : String) : Edited (List Char) :=
  Splice.carryOut doc (setAttributePlan doc id name value)

/-! ## Blocks of a widget -/

/-- The splices that write a block of the first widget with an id: over the block of that name, or as a
new child. -/
def blockPlan (doc : List Char) (id name : String) (place : Place)
    (write : Option Element → Except Fault (List Char)) : Except Fault (List Splice) := do
  match ← elementById doc widgetNames id with
  | none => return []
  | some w =>
    let block ← findFirst doc w.content name
    let text ← write block
    match block with
    | some e => return [⟨e.span, text⟩]
    | none => insertChild doc w place text

/-- The attributes of a block, or none. -/
def attrsOf (block : Option Element) : Attributes :=
  (block.map Element.attrs).getD []

/-- The splices that set fields in the data source of the first widget with an id. Blank values are left
out. -/
def setDataSourcePlan (doc : List Char) (id : String) (fields : Attributes) :
    Except Fault (List Splice) :=
  let changes := (fields.filter fun a => trimmed a.value != "").map fun a =>
    Attributes.Change.set a.name a.value
  blockPlan doc id "datasource" .first fun block =>
    return selfClosingTag "datasource" ((attrsOf block).applyAll changes)

/-- Sets fields in the data source of the first widget with an id. -/
def setDataSource (doc : List Char) (id : String) (fields : Attributes) : Edited (List Char) :=
  Splice.carryOut doc (setDataSourcePlan doc id fields)

/-- The splices that set the styling tokens of the first widget with an id. -/
def setTokensPlan (doc : List Char) (id tokens : String) : Except Fault (List Splice) :=
  blockPlan doc id "styling" .last fun block =>
    return selfClosingTag "styling" ((attrsOf block).applyAll [.set "tw" tokens, .drop "class"])

/-- Sets the styling tokens of the first widget with an id. -/
def setTokens (doc : List Char) (id tokens : String) : Edited (List Char) :=
  Splice.carryOut doc (setTokensPlan doc id tokens)

/-- The object in a block; empty if there is none that can be read. -/
def objectIn (doc : List Char) (block : Option Element) : Except Fault Json.Object := do
  match block with
  | none => return []
  | some e =>
    match Json.readObject (Text.trim (← e.innerText doc)) with
    | .ok o => return o
    | .error _ => return []

/-- A configuration block. -/
def configBlock (o : Json.Object) : List Char :=
  "<config>\n".toList ++ (Json.object o).pretty ++ "\n</config>".toList

/-- The splices that change the object in the configuration of the first widget with an id. -/
def setConfigPlan (doc : List Char) (id : String) (update : Json.Object → Json.Object) :
    Except Fault (List Splice) :=
  blockPlan doc id "config" .first fun block =>
    return configBlock (update (← objectIn doc block))

/-- Changes the object in the configuration of the first widget with an id. -/
def setConfig (doc : List Char) (id : String) (update : Json.Object → Json.Object) :
    Edited (List Char) :=
  Splice.carryOut doc (setConfigPlan doc id update)

/-! ## Styles of groups -/

/-- A style block. -/
def styleBlock (style : Json.Object) : List Char :=
  "<style>".toList ++ (Json.object style).compact ++ "</style>".toList

/-- The splices that write the style of the first group with an id. Styles inside its widgets are not its
own. -/
def setGroupStylePlan (doc : List Char) (id : String) (style : Json.Object) :
    Except Fault (List Splice) := do
  match ← elementById doc ["group"] id with
  | none => return []
  | some group =>
    let found ← find doc group.content ("style" :: widgetNames)
    match found.find? (·.name == "style") with
    | some e => return [⟨e.span, styleBlock style⟩]
    | none => insertChild doc group .first (styleBlock style)

/-- Writes the style of the first group with an id. -/
def setGroupStyle (doc : List Char) (id : String) (style : Json.Object) : Edited (List Char) :=
  Splice.carryOut doc (setGroupStylePlan doc id style)

/-! ## Removal -/

/-- The splices that cut out elements with the lines that they have to themselves. -/
def removalPlan (doc : List Char) (chosen : Except Fault (List Element)) :
    Except Fault (List Splice) :=
  chosen.bind fun found => found.mapM fun e => return ⟨← e.span.wholeLines doc, []⟩

/-- Carries out a removal, and counts the elements that it cuts out. -/
def removeLines (doc : List Char) (plan : Except Fault (List Splice)) : Edited (List Char × Nat) := do
  let cut ← Splice.carryOut doc plan
  match plan with
  | .ok (s :: more) => return (Text.collapseBreaks 0 cut, (s :: more).length)
  | _ => return (cut, 0)

/-- The widgets that `removeWidget` cuts out. -/
def doomedWidgets (doc : List Char) (id : String) : Except Fault (List Element) :=
  (elementsById doc widgetNames id).map fun found => found.filter Element.closed

/-- The widgets that `dedupeWidget` cuts out. -/
def doomedDuplicates (doc : List Char) (id : String) : Except Fault (List Element) :=
  (elementsById doc widgetNames id).map fun found => (found.drop 1).filter Element.closed

/-- The groups that `removeGroup` cuts out. -/
def doomedGroups (doc : List Char) (id : String) : Except Fault (List Element) :=
  (elementsById doc ["group"] id).map fun found => found.filter Element.closed

/-- Removes every widget with an id. -/
def removeWidget (doc : List Char) (id : String) : Edited (List Char × Nat) :=
  removeLines doc (removalPlan doc (doomedWidgets doc id))

/-- Removes every widget with an id but the first. -/
def dedupeWidget (doc : List Char) (id : String) : Edited (List Char × Nat) :=
  removeLines doc (removalPlan doc (doomedDuplicates doc id))

/-- Removes every group with an id, and what is in it. -/
def removeGroup (doc : List Char) (id : String) : Edited (List Char × Nat) :=
  removeLines doc (removalPlan doc (doomedGroups doc id))

end DashboardMarkup.Edit
