import SpecRecovery.Abi.Codec

namespace SpecRecovery

inductive SlotType
  | value (type : AbiType)
  | mapping (keys : List AbiType) (value : AbiType)
deriving DecidableEq

-- A variable starts at a byte of a slot, which is not the first only if several variables share it.
structure StorageVariable where
  name : String
  slot : Word
  offset : Nat
  type : SlotType
deriving DecidableEq

structure Layout where
  declarations : List StorageVariable
deriving DecidableEq

namespace SlotType

-- What a mapping to values of a type holds, where mappings to mappings count as one.
def underKey (key : AbiType) : SlotType → SlotType
  | value type => mapping [key] type
  | mapping keys element => mapping (key :: keys) element

def toJson : SlotType → Json
  | value type => .alternative "value" [("type", type.toJson)]
  | mapping keys element =>
      .alternative "mapping" [("keys", .array (keys.map AbiType.toJson)), ("value", element.toJson)]

def ofJson? (json : Json) : Option SlotType := do
  let (name, content) ← json.variant?
  match name with
  | "value" =>
      match ← (← content).values? [.required "type"] with
      | [type] => return value (← AbiType.ofJson? type)
      | _ => none
  | "mapping" =>
      match ← (← content).values? [.required "keys", .required "value"] with
      | [keys, element] => return mapping (← AbiType.listOfJson? keys) (← AbiType.ofJson? element)
      | _ => none
  | _ => none

end SlotType

namespace StorageVariable

def ofValue (name : String) (slot : Word) (type : AbiType) : StorageVariable :=
  ⟨name, slot, 0, .value type⟩

def position (stored : StorageVariable) : Word × Nat := (stored.slot, stored.offset)

def toJson (stored : StorageVariable) : Json :=
  .object [("name", .string stored.name), ("slot", stored.slot.toJson),
    ("offset", .count stored.offset), ("type", stored.type.toJson)]

def ofJson? (json : Json) : Option StorageVariable := do
  match ← json.values?
      [.required "name", .required "slot", .required "offset", .required "type"] with
  | [name, slot, offset, type] =>
      return ⟨← name.string?, ← Word.ofJson? slot, ← offset.count?, ← SlotType.ofJson? type⟩
  | _ => none

end StorageVariable

namespace Layout

def empty : Layout := ⟨[]⟩

def add (layout : Layout) (stored : StorageVariable) : Layout :=
  ⟨layout.declarations ++ [stored]⟩

def get? (layout : Layout) (name : String) : Option StorageVariable :=
  layout.declarations.find? fun stored => stored.name == name

def isEmpty (layout : Layout) : Bool := layout.declarations.isEmpty

def toJson (layout : Layout) : Json :=
  .object [("variables", .array (layout.declarations.map StorageVariable.toJson))]

def ofJson? (json : Json) : Option Layout := do
  match ← json.values? [.required "variables"] with
  | [declarations] => return ⟨← (← declarations.array?).mapM StorageVariable.ofJson?⟩
  | _ => none

end Layout

end SpecRecovery
