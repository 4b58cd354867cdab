import DashboardMarkup.Document.Reading
import DashboardMarkup.Json.Reader

/-!
# Islands of JSON

Some elements hold a JSON object. A `<style>` may hold plain rules instead; a body that does not begin
with a brace is taken for these and passed over.
-/

namespace DashboardMarkup.Island

open Markup

/-- The JSON object that a text spells; a text that spells none is noted. -/
def parse (island : Island) (body : List Char) (offset : Nat) : Reading (Option Json.Object) :=
  match Json.readObject body with
  | .ok o => return some o
  | .error flaw => do
    Reading.note (.malformedJson island (flaw.message body)) offset
    return none

/-- The JSON object in a `<style>` element, if it holds one. -/
def readStyle (island : Island) (doc : List Char) (e : Element) :
    Reading (Option Json.Object) := do
  let body := Text.trim (← e.innerText doc)
  if body.head? == some '\x7b' then island.parse body e.start else return none

/-- The JSON object in a `<config>` element, unless it is blank. -/
def readConfig (island : Island) (doc : List Char) (e : Element) :
    Reading (Option Json.Object) := do
  let body := Text.trim (← e.innerText doc)
  if body.isEmpty then return none else island.parse body e.start

end DashboardMarkup.Island
