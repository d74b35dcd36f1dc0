import SpecRecovery.Json.Basic
import SpecRecovery.Json.Printer
import SpecRecovery.Spec.ExpressionCodec
import SpecRecovery.Spec.Specification

namespace SpecRecovery

namespace Spec

namespace StorageDeclaration

def toJson (declaration : StorageDeclaration) : Json :=
  .object [("type", declaration.type.toJson), ("slot", declaration.slot.toJson)]

def ofJson? (json : Json) : Option StorageDeclaration := do
  match ← json.values? [.required "type", .required "slot"] with
  | [type, slot] => return ⟨← SlotType.ofJson? type, ← Word.ofJson? slot⟩
  | _ => none

end StorageDeclaration

namespace StorageUpdate

def toJson (update : StorageUpdate) : Json :=
  .object [("item", update.item.toJson), ("value", update.value.toJson)]

def ofJson? (json : Json) : Option StorageUpdate := do
  match ← json.values? [.required "item", .required "value"] with
  | [item, value] => return ⟨← StorageItem.ofJson? item, ← IntExpr.ofJson? value⟩
  | _ => none

def listToJson (updates : List StorageUpdate) : Json := .array (updates.map toJson)

def listOfJson? (json : Json) : Option (List StorageUpdate) := do (← json.array?).mapM ofJson?

end StorageUpdate

namespace BoolExpr

def listToJson (exprs : List BoolExpr) : Json := .array (exprs.map toJson)

def listOfJson? (json : Json) : Option (List BoolExpr) := do (← json.array?).mapM ofJson?

end BoolExpr

namespace Constructor

def toJson (constructor : Constructor) : Json :=
  .object [("contract", .string constructor.contract),
    ("interface", constructor.interface.toJson),
    ("preconditions", BoolExpr.listToJson constructor.preconditions),
    ("initial_storage", StorageUpdate.listToJson constructor.initialStorage)]

def ofJson? (json : Json) : Option Constructor := do
  match ← json.values? [.required "contract", .required "interface", .required "preconditions",
      .required "initial_storage"] with
  | [contract, interface, preconditions, initialStorage] =>
      return {
        contract := ← contract.string?
        interface := ← Interface.ofJson? interface
        preconditions := ← BoolExpr.listOfJson? preconditions
        initialStorage := ← StorageUpdate.listOfJson? initialStorage }
  | _ => none

end Constructor

namespace Behaviour

def returnsOfJson? : Json → Option (Option IntExpr)
  | .null => some none
  | json => (IntExpr.ofJson? json).map some

def toJson (behaviour : Behaviour) : Json :=
  .object [("name", .string behaviour.name), ("contract", .string behaviour.contract),
    ("interface", behaviour.interface.toJson), ("branch", .count behaviour.branch),
    ("preconditions", BoolExpr.listToJson behaviour.preconditions),
    ("storage_updates", StorageUpdate.listToJson behaviour.storageUpdates),
    ("returns", (behaviour.returns.map IntExpr.toJson).getD .null)]

def ofJson? (json : Json) : Option Behaviour := do
  match ← json.values? [.required "name", .required "contract", .required "interface",
      .required "branch", .required "preconditions", .required "storage_updates",
      .nullable "returns"] with
  | [name, contract, interface, branch, preconditions, storageUpdates, returns] =>
      return {
        name := ← name.string?
        contract := ← contract.string?
        interface := ← Interface.ofJson? interface
        branch := ← branch.count?
        preconditions := ← BoolExpr.listOfJson? preconditions
        storageUpdates := ← StorageUpdate.listOfJson? storageUpdates
        returns := ← returnsOfJson? returns }
  | _ => none

end Behaviour

end Spec

namespace Specification

def storageToJson (storage : Table String (Table String Spec.StorageDeclaration)) : Json :=
  storage.toJson (Table.toJson Spec.StorageDeclaration.toJson)

def storageOfJson? : Json → Option (Table String (Table String Spec.StorageDeclaration)) :=
  Table.ofJson? (Table.ofJson? Spec.StorageDeclaration.ofJson?)

def toJson (specification : Specification) : Json :=
  .object [("contract", .string specification.contract),
    ("storage", storageToJson specification.storage),
    ("constructor", specification.constructor.toJson),
    ("behaviours", .array (specification.behaviours.map Spec.Behaviour.toJson))]

def ofJson? (json : Json) : Option Specification := do
  match ← json.values? [.required "contract", .required "storage", .required "constructor",
      .required "behaviours"] with
  | [contract, storage, constructor, behaviours] =>
      return {
        contract := ← contract.string?
        storage := ← storageOfJson? storage
        constructor := ← Spec.Constructor.ofJson? constructor
        behaviours := ← (← behaviours.array?).mapM Spec.Behaviour.ofJson? }
  | _ => none

def pretty (specification : Specification) : String := specification.toJson.pretty

end Specification

end SpecRecovery
