import SpecRecovery.Json.Values
import SpecRecovery.Machine.Rendering

namespace SpecRecovery

def slotsToJson (slots : Table Word Word) : Json := Json.ofPairs .ofWord .ofWord slots.entries

def slotsOfJson? (json : Json) : Option (Table Word Word) := do
  return Table.ofList (← json.pairs? Json.word? Json.word?)

namespace Comparison

def ofTag? (tag : String) : Option Comparison :=
  [lt, gt, leq, geq].find? fun op => op.name.toLower == tag

end Comparison

namespace Connective

def ofTag? (tag : String) : Option Connective :=
  [and, or, impl].find? fun op => op.name.toLower == tag

end Connective

namespace Machine

namespace BinaryOp

def all : List BinaryOp :=
  [Arithmetic.add, .sub, .mul, .div, .mod, .exp].map arithmetic ++
    [Comparison.lt, .gt, .leq, .geq].map compare ++ [eq, and, or, xor, extendSign]

-- The tag of a node is its name in small letters.
def tag (op : BinaryOp) : String := op.name.toLower

def ofTag? (tag : String) : Option BinaryOp := all.find? fun op => op.tag == tag

end BinaryOp

mutual

def Expr.toJson : Expr → Json
  | .lit value => .tagged "lit" [.ofWord value]
  | .var name => .tagged "var" [.string name]
  | .env value => .tagged "env" [value.toJson]
  | .selector => .tagged "selector" []
  | .binary op left right => .tagged op.tag [left.toJson, right.toJson]
  | .isZero number => .tagged "iszero" [number.toJson]
  | .not value => .tagged "not" [value.toJson]
  | .ite condition first second =>
      .tagged "ite" [condition.toJson, first.toJson, second.toJson]
  | .sload key store => .tagged "sload" [key.toJson, store.toJson]
  | .keccak data => .tagged "keccak" [data.toJson]

def Store.toJson : Store → Json
  | .abstract => .tagged "abstract" []
  | .concrete slots => .tagged "concrete" [slotsToJson slots]
  | .write key value prior => .tagged "write" [key.toJson, value.toJson, prior.toJson]

def Buffer.toJson : Buffer → Json
  | .concrete bytes => .tagged "concrete" [.ofBytes bytes]
  | .abstract name => .tagged "abstract" [.string name]
  | .write offset value base => .tagged "write" [offset.toJson, value.toJson, base.toJson]

end

mutual

def Expr.ofJson? : Json → Option Expr
  | .array [.string "lit", value] => do return .lit (← value.word?)
  | .array [.string "var", name] => do return .var (← name.string?)
  | .array [.string "env", value] => do return .env (← Environment.ofJson? value)
  | .array [.string "selector"] => some .selector
  | .array [.string "iszero", number] => do return .isZero (← Expr.ofJson? number)
  | .array [.string "not", value] => do return .not (← Expr.ofJson? value)
  | .array [.string "ite", condition, first, second] => do
      return .ite (← Expr.ofJson? condition) (← Expr.ofJson? first) (← Expr.ofJson? second)
  | .array [.string "sload", key, store] => do
      return .sload (← Expr.ofJson? key) (← Store.ofJson? store)
  | .array [.string "keccak", data] => do return .keccak (← Buffer.ofJson? data)
  | .array [.string tag, left, right] => do
      return .binary (← BinaryOp.ofTag? tag) (← Expr.ofJson? left) (← Expr.ofJson? right)
  | _ => none

def Store.ofJson? : Json → Option Store
  | .array [.string "abstract"] => some .abstract
  | .array [.string "concrete", slots] => do return .concrete (← slotsOfJson? slots)
  | .array [.string "write", key, value, prior] => do
      return .write (← Expr.ofJson? key) (← Expr.ofJson? value) (← Store.ofJson? prior)
  | _ => none

def Buffer.ofJson? : Json → Option Buffer
  | .array [.string "concrete", bytes] => do return .concrete (← bytes.bytes?)
  | .array [.string "abstract", name] => do return .abstract (← name.string?)
  | .array [.string "write", offset, value, base] => do
      return .write (← Expr.ofJson? offset) (← Expr.ofJson? value) (← Buffer.ofJson? base)
  | _ => none

end

namespace Operand

def toJson : Operand → Json
  | word value => .tagged "word" [value.toJson]
  | buffer value => .tagged "buf" [value.toJson]
  | store value => .tagged "storage" [value.toJson]

def ofJson? : Json → Option Operand
  | .array [.string "word", value] => do return word (← Expr.ofJson? value)
  | .array [.string "buf", value] => do return buffer (← Buffer.ofJson? value)
  | .array [.string "storage", value] => do return store (← Store.ofJson? value)
  | _ => none

end Operand

namespace Cond

def toJson : Cond → Json
  | bool value => .tagged "bool" [.boolean value]
  | eq left right => .tagged "eq" [left.toJson, right.toJson]
  | compare op left right => .tagged op.name.toLower [left.toJson, right.toJson]
  | neg inner => .tagged "neg" [inner.toJson]
  | join op left right => .tagged op.name.toLower [left.toJson, right.toJson]

def ofJson? : Json → Option Cond
  | .array [.string "bool", value] => do return bool (← value.boolean?)
  | .array [.string "eq", left, right] => do
      return eq (← Operand.ofJson? left) (← Operand.ofJson? right)
  | .array [.string "neg", inner] => do return neg (← ofJson? inner)
  | .array [.string tag, left, right] =>
      match Comparison.ofTag? tag with
      | some op => do return compare op (← Expr.ofJson? left) (← Expr.ofJson? right)
      | none => do return join (← Connective.ofTag? tag) (← ofJson? left) (← ofJson? right)
  | _ => none

end Cond

end Machine

end SpecRecovery
