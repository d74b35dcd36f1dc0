import SpecRecovery.Exploration.Query
import SpecRecovery.Machine.ProgramCodec

namespace SpecRecovery

-- The answers of an engine that are known beforehand.
structure Script where
  creation : Except ExplorationError Machine.Program
  methods : List (Selector × Except ExplorationError Machine.Program)
  runtime : Except ExplorationError Machine.Program

namespace Script

-- The last answer for a selector counts.
def methodAnswer (script : Script) (selector : Selector) :
    Except ExplorationError Machine.Program :=
  match script.methods.findRev? fun entry => entry.1 == selector with
  | some entry => entry.2
  | none => .error (.engine ("no script for " ++ selector.text))

def explorer (script : Script) : Explorer where
  explore query :=
    match query.calldata with
    | .creation _ => script.creation
    | .method selector _ => script.methodAnswer selector
    | .unconstrained => script.runtime

def answerOfJson? (json : Json) : Option (Except ExplorationError Machine.Program) :=
  match json.values? [.required "error"] with
  | some [reason] => do return .error (.engine (← reason.string?))
  | _ => do return .ok (← Machine.Program.ofJson? json)

def ofJson? (json : Json) : Option Script := do
  match ← json.values? [.required "creation", .required "methods", .required "runtime"] with
  | [creation, methods, runtime] =>
      return {
        creation := ← answerOfJson? creation
        methods := ← methods.pairs? Selector.ofJson? answerOfJson?
        runtime := ← answerOfJson? runtime }
  | _ => none

end Script

end SpecRecovery
