import SpecRecovery.Table
import SpecRecovery.Word

namespace SpecRecovery

-- A JSON value as it is written. Members keep their order and their repetitions, and a number with
-- a fraction, an exponent or the sign of minus zero keeps its spelling. An unreadable value may
-- stand where nobody looks at it.
inductive Json
  | null
  | boolean (value : Bool)
  | integer (value : Int)
  | fraction (spelling : String)
  | string (value : String)
  | array (items : List Json)
  | object (members : List (String × Json))
  | unreadable
deriving Inhabited

namespace Json

mutual

def depth : Json → Nat
  | array items => depthOfItems items + 1
  | object members => depthOfMembers members + 1
  | _ => 0

def depthOfItems : List Json → Nat
  | [] => 0
  | item :: rest => max (depth item) (depthOfItems rest)

def depthOfMembers : List (String × Json) → Nat
  | [] => 0
  | (_, value) :: rest => max (depth value) (depthOfMembers rest)

end

-- The value with all containers unreadable that have `depth` others around them.
def reach : (depth : Nat) → Json → Json
  | 0, array _ | 0, object _ => unreadable
  | depth + 1, array items => array (items.map (reach depth))
  | depth + 1, object members =>
      object (members.map fun member => (member.1, reach depth member.2))
  | _, json => json

def count (number : Nat) : Json := integer number

-- Whether a field has to be written. A nullable field that is left out of an object counts as null,
-- and a field with a default can also be left off the end of a positional record.
inductive Presence
  | required
  | nullable
  | defaulted
deriving DecidableEq

structure Field where
  name : String
  presence : Presence

def Field.required (name : String) : Field := ⟨name, .required⟩

def Field.nullable (name : String) : Field := ⟨name, .nullable⟩

def Field.defaulted (name : String) : Field := ⟨name, .defaulted⟩

-- The value of a field in an object, where a field may not be written twice. The inner `none` is a
-- field that is left to its default.
def Field.ofMembers? (field : Field) (members : List (String × Json)) : Option (Option Json) :=
  match members.filter fun member => member.1 == field.name with
  | [member] => some (some member.2)
  | [] =>
      match field.presence with
      | .required => none
      | .nullable => some (some null)
      | .defaulted => some none
  | _ => none

def fieldsOfItems? : List Field → List Json → Option (List (Option Json))
  | [], [] => some []
  | [], _ :: _ => none
  | _ :: fields, item :: items => (fieldsOfItems? fields items).map (some item :: ·)
  | field :: fields, [] =>
      match field.presence with
      | .defaulted => (fieldsOfItems? fields []).map (none :: ·)
      | _ => none

-- The values of the fields of a record, which is an object with at least these members or an array
-- of the values in the order of the fields.
def record? (fields : List Field) : Json → Option (List (Option Json))
  | object members => fields.mapM fun field => field.ofMembers? members
  | array items => fieldsOfItems? fields items
  | _ => none

def values? (fields : List Field) (json : Json) : Option (List Json) :=
  (record? fields json).bind fun values => values.mapM id

-- The name of an alternative, and its content unless it is written as a name alone.
def variant? : Json → Option (String × Option Json)
  | string name => some (name, none)
  | object [(name, content)] => some (name, some content)
  | _ => none

-- An alternative without content may be written with null as its content.
def isUnit : Option Json → Bool
  | none | some null => true
  | _ => false

def string? : Json → Option String
  | string value => some value
  | _ => none

def boolean? : Json → Option Bool
  | boolean value => some value
  | _ => none

def array? : Json → Option (List Json)
  | array items => some items
  | _ => none

def object? : Json → Option (List (String × Json))
  | object members => some members
  | _ => none

def countBelow? (limit : Nat) : Json → Option Nat
  | integer (.ofNat value) => if value < limit then some value else none
  | _ => none

def count? : Json → Option Nat := countBelow? (twoTo 64)

def alternative (name : String) (members : List (String × Json)) : Json :=
  object [(name, object members)]

end Json

-- A table by names is an object, whose members stand in the order of the keys.
def Table.toJson {ν : Type} (encode : ν → Json) (table : Table String ν) : Json :=
  .object (table.entries.map fun entry => (entry.1, encode entry.2))

-- Of the members with one name the last counts.
def Table.ofJson? {ν : Type} (decode : Json → Option ν) (json : Json) :
    Option (Table String ν) := do
  let entries ← (← json.object?).mapM fun member => do return (member.1, ← decode member.2)
  return Table.ofList entries

end SpecRecovery
