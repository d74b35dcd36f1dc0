import SpecRecovery.Abi.Interface
import SpecRecovery.Json.Basic

namespace SpecRecovery

namespace Word

def toJson (word : Word) : Json :=
  .string (String.ofList ('0' :: 'x' :: Text.hexDigits 64 word.toNat))

-- The digits of a word after its marker, in front of which one plus sign may stand.
def ofMarkedHex? : List Char → Option Word
  | '+' :: '0' :: 'x' :: digits | '0' :: 'x' :: digits => do
      let value ← Text.numberOfHex? digits
      if value < twoTo sizeBits then some (BitVec.ofNat 256 value) else none
  | _ => none

def ofJson? (json : Json) : Option Word := do ofMarkedHex? (← json.string?).toList

end Word

namespace Selector

def toJson (selector : Selector) : Json := .string selector.text

def ofJson? (json : Json) : Option Selector := do parse? (← json.string?)

end Selector

namespace AbiType

mutual

def toJson : AbiType → Json
  | uint size => .alternative "u_int" [("size", .count size)]
  | int size => .alternative "int" [("size", .count size)]
  | address => .string "address"
  | bool => .string "bool"
  | bytes length => .alternative "bytes" [("length", .count length)]
  | dynBytes => .string "dyn_bytes"
  | string => .string "string"
  | array size element =>
      .alternative "array" [("size", size.toJson), ("type", toJson element)]
  | dynArray element => .alternative "dyn_array" [("type", toJson element)]
  | tuple elements => .alternative "tuple" [("elements", .array (toJsonList elements))]
  | function => .string "function"

def toJsonList : List AbiType → List Json
  | [] => []
  | element :: rest => toJson element :: toJsonList rest

end

def unit? : String → Option AbiType
  | "address" => some address
  | "bool" => some bool
  | "dyn_bytes" => some dynBytes
  | "string" => some string
  | "function" => some function
  | _ => none

-- Reads a type whose value has at most `depth` containers around each other.
def decode (depth : Nat) (json : Json) : Option AbiType :=
  match depth with
  | 0 => do
      let (name, content) ← json.variant?
      if Json.isUnit content then unit? name else none
  | depth + 1 => do
      let (name, content) ← json.variant?
      if Json.isUnit content then unit? name
      else
        let content ← content
        match name with
        | "u_int" =>
            match ← content.values? [.required "size"] with
            | [size] => return uint (← size.count?)
            | _ => none
        | "int" =>
            match ← content.values? [.required "size"] with
            | [size] => return int (← size.count?)
            | _ => none
        | "bytes" =>
            match ← content.values? [.required "length"] with
            | [length] => return bytes (← length.count?)
            | _ => none
        | "array" =>
            match ← content.values? [.required "size", .required "type"] with
            | [size, element] => return array (← Word.ofJson? size) (← decode depth element)
            | _ => none
        | "dyn_array" =>
            match ← content.values? [.required "type"] with
            | [element] => return dynArray (← decode depth element)
            | _ => none
        | "tuple" =>
            match ← content.values? [.required "elements"] with
            | [elements] => return tuple (← (← elements.array?).mapM (decode depth))
            | _ => none
        | _ => none

def ofJson? (json : Json) : Option AbiType := decode json.depth json

def listOfJson? (json : Json) : Option (List AbiType) := do (← json.array?).mapM ofJson?

end AbiType

namespace Argument

def toJson (argument : Argument) : Json :=
  .object [("name", .string argument.name), ("type", argument.type.toJson)]

def ofJson? (json : Json) : Option Argument := do
  match ← json.values? [.required "name", .required "type"] with
  | [name, type] => return ⟨← name.string?, ← AbiType.ofJson? type⟩
  | _ => none

end Argument

namespace Interface

def toJson (interface : Interface) : Json :=
  .object [("name", .string interface.name),
    ("arguments", .array (interface.arguments.map Argument.toJson))]

def ofJson? (json : Json) : Option Interface := do
  match ← json.values? [.required "name", .required "arguments"] with
  | [name, arguments] =>
      return ⟨← name.string?, ← (← arguments.array?).mapM Argument.ofJson?⟩
  | _ => none

end Interface

namespace Method

def toJson (method : Method) : Json :=
  .object [("interface", method.interface.toJson),
    ("outputs", .array (method.outputs.map AbiType.toJson))]

def ofJson? (json : Json) : Option Method := do
  match ← json.values? [.required "interface", .required "outputs"] with
  | [interface, outputs] =>
      return ⟨← Interface.ofJson? interface, ← AbiType.listOfJson? outputs⟩
  | _ => none

end Method

end SpecRecovery
