import SpecRecovery.Abi.Codec
import SpecRecovery.Json.Values
import SpecRecovery.Spec.Expression

namespace SpecRecovery

namespace Arithmetic

def key : Arithmetic → String
  | add => "add"
  | sub => "sub"
  | mul => "mul"
  | div => "div"
  | mod => "mod"
  | exp => "exp"

def ofKey? (key : String) : Option Arithmetic :=
  [add, sub, mul, div, mod, exp].find? fun op => op.key == key

end Arithmetic

namespace Comparison

def key : Comparison → String
  | lt => "lt"
  | gt => "gt"
  | leq => "l_eq"
  | geq => "g_eq"

def ofKey? (key : String) : Option Comparison := [lt, gt, leq, geq].find? fun op => op.key == key

end Comparison

namespace Connective

def key : Connective → String
  | and => "and"
  | or => "or"
  | impl => "impl"

def ofKey? (key : String) : Option Connective := [and, or, impl].find? fun op => op.key == key

end Connective

namespace Spec

namespace Kind

def key : Kind → String
  | integer => "integer"
  | boolean => "boolean"
  | byteString => "byte_string"
  | contract => "contract"

end Kind

namespace Timing

def toJson : Timing → Json
  | pre => .string "pre"
  | post => .string "post"

def ofJson? (json : Json) : Option Timing := do
  let (name, content) ← json.variant?
  if Json.isUnit content then
    match name with
    | "pre" => some pre
    | "post" => some post
    | _ => none
  else none

end Timing

namespace StorageItem

def toJson (item : StorageItem) : Json :=
  .object [("contract", .string item.contract), ("name", .string item.name),
    ("type", item.type.toJson)]

def ofJson? (json : Json) : Option StorageItem := do
  match ← json.values? [.required "contract", .required "name", .required "type"] with
  | [contract, name, type] =>
      return ⟨← contract.string?, ← name.string?, ← AbiType.ofJson? type⟩
  | _ => none

end StorageItem

namespace BytesExpr

def toJson : BytesExpr → Json
  | lit value => .alternative "lit" [("value", .array (value.map fun byte => .count byte.toNat))]
  | var name => .alternative "var" [("name", .string name)]

def ofJson? (json : Json) : Option BytesExpr := do
  let (key, content) ← json.variant?
  let content ← content
  match key with
  | "lit" =>
      match ← content.values? [.required "value"] with
      | [value] => return lit (← (← value.array?).mapM fun byte => do
          return UInt8.ofNat (← byte.countBelow? 256))
      | _ => none
  | "var" =>
      match ← content.values? [.required "name"] with
      | [name] => return var (← name.string?)
      | _ => none
  | _ => none

end BytesExpr

namespace ContractExpr

def toJson : ContractExpr → Json
  | var name contract =>
      .alternative "var" [("name", .string name), ("contract", .string contract)]

def ofJson? (json : Json) : Option ContractExpr := do
  let (key, content) ← json.variant?
  if key ≠ "var" then none
  else
    match ← (← content).values? [.required "name", .required "contract"] with
    | [name, contract] => return var (← name.string?) (← contract.string?)
    | _ => none

end ContractExpr

mutual

def IntExpr.toJson : IntExpr → Json
  | .lit value => .alternative "lit" [("value", Json.BigInteger.write value)]
  | .var name type => .alternative "var" [("name", .string name), ("type", type.toJson)]
  | .env value => .alternative "env" [("value", value.toJson)]
  | .entry timing item =>
      .alternative "entry" [("timing", timing.toJson), ("item", item.toJson)]
  | .arithmetic op left right =>
      .alternative op.key [(op.sides.1, left.toJson), (op.sides.2, right.toJson)]
  | .ite condition first second =>
      .alternative "ite"
        [("condition", condition.toJson), ("then", first.toJson), ("otherwise", second.toJson)]

def BoolExpr.toJson : BoolExpr → Json
  | .lit value => .alternative "lit" [("value", .boolean value)]
  | .join op left right =>
      .alternative op.key [(op.sides.1, left.toJson), (op.sides.2, right.toJson)]
  | .neg value => .alternative "neg" [("value", value.toJson)]
  | .compare op left right =>
      .alternative op.key [("left", left.toJson), ("right", right.toJson)]
  | .eq equation => .alternative "eq" [("equality", equation.toJson)]
  | .neq equation => .alternative "n_eq" [("equality", equation.toJson)]
  | .inRange type value =>
      .alternative "in_range" [("type", type.toJson), ("value", value.toJson)]

def Equation.toJson : Equation → Json
  | .integer left right =>
      .alternative "integer" [("left", left.toJson), ("right", right.toJson)]
  | .boolean left right =>
      .alternative "boolean" [("left", left.toJson), ("right", right.toJson)]
  | .byteString left right =>
      .alternative "byte_string" [("left", left.toJson), ("right", right.toJson)]
  | .contract left right =>
      .alternative "contract" [("left", left.toJson), ("right", right.toJson)]

end

def sidesOf? (sides : String × String) (content : Json) : Option (Json × Json) := do
  match ← content.values? [.required sides.1, .required sides.2] with
  | [left, right] => some (left, right)
  | _ => none

-- Readers of expressions whose values have at most `depth` containers around each other. No
-- expression is written without a container.
mutual

def IntExpr.decode (depth : Nat) (json : Json) : Option IntExpr :=
  match depth with
  | 0 => none
  | depth + 1 => do
      let (key, content) ← json.variant?
      let content ← content
      match key with
      | "lit" =>
          match ← content.values? [.required "value"] with
          | [value] => return .lit (← Json.BigInteger.read? value)
          | _ => none
      | "var" =>
          match ← content.values? [.required "name", .required "type"] with
          | [name, type] => return .var (← name.string?) (← AbiType.ofJson? type)
          | _ => none
      | "env" =>
          match ← content.values? [.required "value"] with
          | [value] => return .env (← Environment.ofJson? value)
          | _ => none
      | "entry" =>
          match ← content.values? [.required "timing", .required "item"] with
          | [timing, item] => return .entry (← Timing.ofJson? timing) (← StorageItem.ofJson? item)
          | _ => none
      | "ite" =>
          match ← content.values?
              [.required "condition", .required "then", .required "otherwise"] with
          | [condition, first, second] =>
              return .ite (← BoolExpr.decode depth condition) (← IntExpr.decode depth first)
                (← IntExpr.decode depth second)
          | _ => none
      | _ =>
          let op ← Arithmetic.ofKey? key
          let (left, right) ← sidesOf? op.sides content
          return .arithmetic op (← IntExpr.decode depth left) (← IntExpr.decode depth right)

def BoolExpr.decode (depth : Nat) (json : Json) : Option BoolExpr :=
  match depth with
  | 0 => none
  | depth + 1 => do
      let (key, content) ← json.variant?
      let content ← content
      match key with
      | "lit" =>
          match ← content.values? [.required "value"] with
          | [value] => return .lit (← value.boolean?)
          | _ => none
      | "neg" =>
          match ← content.values? [.required "value"] with
          | [value] => return .neg (← BoolExpr.decode depth value)
          | _ => none
      | "eq" =>
          match ← content.values? [.required "equality"] with
          | [equation] => return .eq (← Equation.decode depth equation)
          | _ => none
      | "n_eq" =>
          match ← content.values? [.required "equality"] with
          | [equation] => return .neq (← Equation.decode depth equation)
          | _ => none
      | "in_range" =>
          match ← content.values? [.required "type", .required "value"] with
          | [type, value] =>
              return .inRange (← AbiType.ofJson? type) (← IntExpr.decode depth value)
          | _ => none
      | _ =>
          match Comparison.ofKey? key with
          | some op =>
              let (left, right) ← sidesOf? ("left", "right") content
              return .compare op (← IntExpr.decode depth left) (← IntExpr.decode depth right)
          | none =>
              let op ← Connective.ofKey? key
              let (left, right) ← sidesOf? op.sides content
              return .join op (← BoolExpr.decode depth left) (← BoolExpr.decode depth right)

def Equation.decode (depth : Nat) (json : Json) : Option Equation :=
  match depth with
  | 0 => none
  | depth + 1 => do
      let (key, content) ← json.variant?
      let (left, right) ← sidesOf? ("left", "right") (← content)
      match key with
      | "integer" =>
          return .integer (← IntExpr.decode depth left) (← IntExpr.decode depth right)
      | "boolean" =>
          return .boolean (← BoolExpr.decode depth left) (← BoolExpr.decode depth right)
      | "byte_string" =>
          return .byteString (← BytesExpr.ofJson? left) (← BytesExpr.ofJson? right)
      | "contract" =>
          return .contract (← ContractExpr.ofJson? left) (← ContractExpr.ofJson? right)
      | _ => none

end

def IntExpr.ofJson? (json : Json) : Option IntExpr := IntExpr.decode json.depth json

def BoolExpr.ofJson? (json : Json) : Option BoolExpr := BoolExpr.decode json.depth json

def Equation.ofJson? (json : Json) : Option Equation := Equation.decode json.depth json

def Expr.toJson : Expr → Json
  | .integer value => .object [("integer", value.toJson)]
  | .boolean value => .object [("boolean", value.toJson)]
  | .byteString value => .object [("byte_string", value.toJson)]
  | .contract value => .object [("contract", value.toJson)]

def Expr.ofJson? (json : Json) : Option Expr := do
  let (key, content) ← json.variant?
  let content ← content
  match key with
  | "integer" => return .integer (← IntExpr.ofJson? content)
  | "boolean" => return .boolean (← BoolExpr.ofJson? content)
  | "byte_string" => return .byteString (← BytesExpr.ofJson? content)
  | "contract" => return .contract (← ContractExpr.ofJson? content)
  | _ => none

end Spec

end SpecRecovery
