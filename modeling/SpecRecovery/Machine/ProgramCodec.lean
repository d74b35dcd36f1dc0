import SpecRecovery.Json.Basic
import SpecRecovery.Machine.Assignment
import SpecRecovery.Machine.Program
import SpecRecovery.Machine.TermCodec

namespace SpecRecovery

namespace Machine

namespace Address

def toJson : Address → Json
  | entrypoint => .tagged "entrypoint" []
  | symbolic name => .tagged "symbolic" [.string name]
  | concrete value => .tagged "concrete" [.ofWord value]

def ofJson? : Json → Option Address
  | .array [.string "entrypoint"] => some entrypoint
  | .array [.string "symbolic", name] => do return symbolic (← name.string?)
  | .array [.string "concrete", value] => do return concrete (← value.word?)
  | _ => none

end Address

namespace Branch

def toJson (branch : Branch) : Json :=
  .object [("conditions", .ofList Cond.toJson branch.conditions),
    ("returned", branch.returned.toJson),
    ("storage", .ofPairs Address.toJson Store.toJson branch.storage.entries)]

def ofJson? (json : Json) : Option Branch := do
  match ← json.values? [.required "conditions", .required "returned", .required "storage"] with
  | [conditions, returned, storage] =>
      return {
        conditions := ← conditions.list? Cond.ofJson?
        returned := ← Buffer.ofJson? returned
        storage := Table.ofList (← storage.pairs? Address.ofJson? Store.ofJson?) }
  | _ => none

end Branch

namespace State

def toJson : State → Json
  | success branch => .tagged "success" [branch.toJson]
  | revert conditions reason =>
      .tagged "failure" [.ofList Cond.toJson conditions, .string reason]
  | unfinished conditions reason =>
      .tagged "partial" [.ofList Cond.toJson conditions, .string reason]

def ofJson? : Json → Option State
  | .array [.string "success", branch] => do return success (← Branch.ofJson? branch)
  | .array [.string "failure", conditions, reason] => do
      return revert (← conditions.list? Cond.ofJson?) (← reason.string?)
  | .array [.string "partial", conditions, reason] => do
      return unfinished (← conditions.list? Cond.ofJson?) (← reason.string?)
  | _ => none

end State

def Program.ofJson? : Json → Option Program
  | .array [.string "end", state] => do return .done (← State.ofJson? state)
  | .array [.string "ite", condition, first, second] => do
      return .ite (← Expr.ofJson? condition) (← Program.ofJson? first) (← Program.ofJson? second)
  | _ => none

end Machine

namespace Assignment

def toJson (assignment : Assignment) : Json :=
  .object [("variables", assignment.calldata.toJson .ofWord),
    ("environment",
      .object (assignment.environment.entries.map fun entry => (entry.1.key, .ofWord entry.2))),
    ("selector", .ofWord assignment.selector), ("storage", slotsToJson assignment.storage)]

def environmentOfJson? (json : Json) : Option (Table Environment Word) := do
  let entries ← (← json.object?).mapM fun member => do
    return (← Environment.ofKey? member.1, ← member.2.word?)
  return Table.ofList entries

def ofJson? (json : Json) : Option Assignment := do
  match ← json.values? [.nullable "variables", .nullable "environment", .nullable "selector",
      .nullable "storage"] with
  | [calldata, environment, selector, storage] =>
      return {
        calldata := ← calldata.orDefault .empty (Table.ofJson? Json.word?)
        environment := ← environment.orDefault .empty environmentOfJson?
        selector := ← selector.orDefault 0 Json.word?
        storage := ← storage.orDefault .empty slotsOfJson? }
  | _ => none

end Assignment

end SpecRecovery
