import DashboardMarkup.Number.Shortest
import DashboardMarkup.Text.Quoted

/-!
# JSON values

Numbers written as integers stay integers as long as they fit sixty-four bits; all others are doubles.
An object is the list of its members. Objects with free keys are kept sorted by key and hold each key
once (`Object.insert`); objects with fixed fields keep the order in which the fields are listed.

* `Object.find?_insert_self`, `Object.find?_insert_of_ne`: what a member reads after an insertion.
-/

namespace DashboardMarkup

/-- A JSON value. -/
inductive Json
  | null
  | bool (b : Bool)
  | integer (z : Int)
  | double (x : Double)
  | string (s : String)
  | array (items : List Json)
  | object (members : List (String × Json))
  deriving Inhabited

namespace Json

/-- The members of a JSON object. -/
abbrev Object := List (String × Json)

namespace Object

/-- The value of the first member with a key. -/
def find? (o : Object) (key : String) : Option Json :=
  List.lookup key o

/-- Sets the member `key` of a sorted object: in the place of the member with that key, or before the
first larger key. -/
def insert (o : Object) (key : String) (value : Json) : Object :=
  match o with
  | [] => [(key, value)]
  | (k, v) :: rest =>
    if key < k then (key, value) :: (k, v) :: rest
    else if key = k then (key, value) :: rest
    else (k, v) :: insert rest key value

/-- The object without the member `key`. -/
def erase (o : Object) (key : String) : Object :=
  o.filter fun (k, _) => k != key

/-- The first object with all members of the second set in it. -/
def overlay (o members : Object) : Object :=
  members.foldl (fun acc (k, v) => acc.insert k v) o

/-- The sorted object of some members; of equal keys the last wins. -/
def ofMembers (members : List (String × Json)) : Object :=
  overlay [] members

theorem find?_insert_self (o : Object) (key : String) (value : Json) :
    (o.insert key value).find? key = some value := by
  induction o with
  | nil => simp [insert, find?]
  | cons m rest ih =>
    obtain ⟨k, v⟩ := m
    simp only [insert]
    split
    · simp [find?]
    · split
      · simp [find?]
      · next hk =>
        have : (key == k) = false := by simpa using hk
        simpa [find?, List.lookup_cons, this] using ih

theorem find?_insert_of_ne (o : Object) {key other : String} (value : Json) (h : other ≠ key) :
    (o.insert key value).find? other = o.find? other := by
  have hk : (other == key) = false := by simpa using h
  induction o with
  | nil => simp [insert, find?, List.lookup_cons, hk]
  | cons m rest ih =>
    obtain ⟨k, v⟩ := m
    simp only [insert]
    split
    · simp [find?, List.lookup_cons, hk]
    · split
      · next heq =>
        subst heq
        simp [find?, List.lookup_cons, hk]
      · simp only [find?, List.lookup_cons]
        split
        · rfl
        · exact ih

end Object

/-- A member for each value that is present. -/
def field? {α : Type} (key : String) (encode : α → Json) : Option α → Object
  | none => []
  | some a => [(key, encode a)]

/-- A JSON string for each text of a list. -/
def strings (texts : List String) : Json :=
  array (texts.map string)

/-- A JSON number for a natural number. -/
def natural (n : Nat) : Json :=
  integer n

/-! ## Naming a value in a message -/

/-- What a message says a value is. -/
inductive Found
  | null
  | bool (b : Bool)
  | integer (z : Int)
  | double (x : Double)
  | string (s : String)
  | sequence
  | map
  deriving DecidableEq, Repr

/-- The name of a value in a message. -/
def found : Json → Found
  | null => .null
  | bool b => .bool b
  | integer z => .integer z
  | double x => .double x
  | string s => .string s
  | array _ => .sequence
  | object _ => .map

/-- The words for a value found in a wrong place. -/
def Found.text : Found → String
  | null => "null"
  | bool b => "boolean `" ++ (if b then "true" else "false") ++ "`"
  | integer z => "integer `" ++ toString z ++ "`"
  | double x => "floating point `" ++ String.ofList x.write ++ "`"
  | string s => "string " ++ String.ofList (Text.quote s.toList)
  | sequence => "sequence"
  | map => "map"

end Json

end DashboardMarkup
