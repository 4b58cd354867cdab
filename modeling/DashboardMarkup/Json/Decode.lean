import DashboardMarkup.Json.Value

/-!
# Values of a fixed shape

Settings, items and links are read from JSON values of a given shape. A whole number serves where a
double is due. `null` stands for an absent value wherever one may be absent. A record is an object with
named members, of which unknown ones are passed over, or an array of its fields in their order.
-/

namespace DashboardMarkup.Json

/-- The shape that a place in a configuration asks for. -/
inductive Shape
  | boolean
  | number
  | text
  | sequence
  | record (name : String)
  deriving DecidableEq, Repr

/-- The words for a shape. -/
def Shape.words : Shape → String
  | boolean => "a boolean"
  | number => "f64"
  | text => "a string"
  | sequence => "a sequence"
  | record name => "struct " ++ name

/-- How a record that is given as an array with too many items is refused. In a configuration whose
members are sorted out before they are read, the items of a record are counted. -/
inductive Surplus
  | fewer
  | counted
  deriving DecidableEq, Repr

/-- Why a value does not have its shape. -/
inductive Mismatch
  | wrongShape (found : Found) (expected : Shape)
  | missing (field : String)
  | tooFew (length : Nat) (record : String) (fields : Nat)
  | tooMany (length : Nat) (surplus : Surplus) (fields : Nat)
  deriving DecidableEq, Repr

/-- The message for a mismatch. -/
def Mismatch.message : Mismatch → String
  | wrongShape found expected => "invalid type: " ++ found.text ++ ", expected " ++ expected.words
  | missing field => "missing field `" ++ field ++ "`"
  | tooFew length record fields =>
    "invalid length " ++ toString length ++ ", expected struct " ++ record ++ " with " ++
      toString fields ++ " elements"
  | tooMany length .fewer _ =>
    "invalid length " ++ toString length ++ ", expected fewer elements in array"
  | tooMany length .counted fields =>
    "invalid length " ++ toString length ++ ", expected " ++ toString fields ++
      (if fields == 1 then " element in sequence" else " elements in sequence")

/-- The refusal of a value of another shape. -/
def refuseShape {α : Type} (v : Json) (expected : Shape) : Except Mismatch α :=
  .error (.wrongShape v.found expected)

/-- The value of a place that may be empty: `null` empties it. -/
def optional {α : Type} (decode : Json → Except Mismatch α) : Json → Except Mismatch (Option α)
  | null => .ok none
  | v => (decode v).map some

/-- A truth value. -/
def asBool : Json → Except Mismatch Bool
  | bool b => .ok b
  | v => refuseShape v .boolean

/-- A double. -/
def asDouble : Json → Except Mismatch Double
  | double x => .ok x
  | integer z => .ok (Double.ofInt z)
  | v => refuseShape v .number

/-- A text. -/
def asText : Json → Except Mismatch String
  | string s => .ok s
  | v => refuseShape v .text

/-- A sequence of values of one shape. -/
def asList {α : Type} (decode : Json → Except Mismatch α) : Json → Except Mismatch (List α)
  | array items => items.mapM decode
  | v => refuseShape v .sequence

/-- Sets the fields of a record from members in their order; the first mismatch counts. -/
def setMembers {ρ : Type} (set : String → Json → ρ → Except Mismatch ρ) (record : ρ)
    (members : Object) : Except Mismatch ρ :=
  members.foldlM (fun r (key, v) => set key v r) record

/-- A record all of whose fields have a default. -/
def asRecord {ρ : Type} (name : String) (fields : List String) (surplus : Surplus)
    (set : String → Json → ρ → Except Mismatch ρ) (record : ρ) : Json → Except Mismatch ρ
  | object members => setMembers set record members
  | array items => do
    let r ← setMembers set record (fields.zip items)
    if fields.length < items.length then
      .error (.tooMany items.length surplus fields.length)
    else return r
  | v => refuseShape v (.record name)

/-- A record without defaults. As an array it has to be complete; as an object it may lack all but the
required fields. -/
def asFullRecord {ρ : Type} (name : String) (fields required : List String)
    (set : String → Json → ρ → Except Mismatch ρ) (record : ρ) : Json → Except Mismatch ρ
  | object members => do
    let r ← setMembers set record members
    match required.find? fun field => (members.find? (·.1 == field)).isNone with
    | some field => .error (.missing field)
    | none => return r
  | array items => do
    let r ← setMembers set record (fields.zip items)
    if items.length < fields.length then .error (.tooFew items.length name fields.length)
    else if fields.length < items.length then .error (.tooMany items.length .fewer fields.length)
    else return r
  | v => refuseShape v (.record name)

end DashboardMarkup.Json
