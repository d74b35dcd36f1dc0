import SpecRecovery.Contract
import SpecRecovery.Event
import SpecRecovery.Failure.Basic
import SpecRecovery.Json.Values
import SpecRecovery.Machine.Program

namespace SpecRecovery

-- The symbolic input of an exploration. Creation code has its arguments behind it, a method has
-- them behind its selector, and without constraints the selector is symbolic too.
inductive Calldata
  | creation (arguments : List Argument)
  | method (selector : Selector) (arguments : List Argument)
  | unconstrained
deriving DecidableEq

structure Query where
  code : List UInt8
  calldata : Calldata
deriving DecidableEq

-- An engine that executes bytecode symbolically. It always gives the same answer to a query, and
-- may have its own way to list the ends of all paths.
structure Explorer where
  explore : Query → Except ExplorationError Machine.Program
  flatten : Machine.Program → List Machine.State := Machine.Program.flatten

structure Exploration where
  entry : EntryPoint
  query : Query
  states : Except ExplorationError (List Machine.State)

namespace Exploration

open Machine

def run (explorer : Explorer) (entry : EntryPoint) (query : Query) : Exploration :=
  ⟨entry, query, (explorer.explore query).map explorer.flatten⟩

-- Arguments have to fit in one symbolic word each, so neither a dynamic type nor a tuple nor a
-- function does.
def checkArguments : List Argument → Except ExplorationError Unit
  | [] => return
  | argument :: rest =>
      if argument.type.isDynamic then throw (.dynamicArgument argument.name argument.type)
      else if argument.type.isTuple || argument.type.isFunction then
        throw (.unsupportedArgument argument.name argument.type)
      else checkArguments rest

def ofCreation (explorer : Explorer) (contract : Contract) :
    Except ExplorationError Exploration := do
  let arguments := contract.constructor.arguments
  checkArguments arguments
  return run explorer .constructor ⟨contract.creationCode, .creation arguments⟩

def ofMethod (explorer : Explorer) (contract : Contract) (method : Method) :
    Except ExplorationError Exploration := do
  let arguments := method.interface.arguments
  checkArguments arguments
  return run explorer (.ofMethod method)
    ⟨contract.runtimeCode, .method method.selector arguments⟩

def ofRuntime (explorer : Explorer) (contract : Contract) : Exploration :=
  run explorer .runtime ⟨contract.runtimeCode, .unconstrained⟩

-- The successful paths in order. There are none to rely on if any path was given up.
def successes (states : List State) : Except ExplorationError (List Branch) :=
  match (states.filter State.isUnfinished).map State.describe with
  | [] =>
      return states.filterMap fun state =>
        match state with
        | .success branch => some branch
        | _ => none
  | unfinished => throw (.unfinished unfinished)

def branches (exploration : Exploration) : Except ExplorationError (List Branch) := do
  successes (← exploration.states)

-- An engine that fails does not finish.
def events (exploration : Exploration) : List Event :=
  .explorationStarted exploration.entry ::
    match exploration.states with
    | .ok states =>
        [.explorationFinished exploration.entry states.length (states.countP State.isUnfinished)]
    | .error _ => []

end Exploration

namespace Calldata

def isCreation : Calldata → Bool
  | creation _ => true
  | _ => false

def members : Calldata → List (String × Json)
  | creation arguments => [("arguments", .ofList Argument.toJson arguments)]
  | method selector arguments =>
      [("arguments", .ofList Argument.toJson arguments), ("selector", selector.toJson)]
  | unconstrained => []

end Calldata

def Query.toJson (query : Query) : Json :=
  .object <| ("code", .ofBytes query.code) ::
    ("creation", .boolean query.calldata.isCreation) :: query.calldata.members

end SpecRecovery
