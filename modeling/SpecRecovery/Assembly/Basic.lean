import SpecRecovery.Assembly.Entry
import SpecRecovery.Event

namespace SpecRecovery

open Spec

structure Assembly where
  contract : String
  storage : Table String (Table String StorageDeclaration)
  constructor : Except LocatedFailure Constructor
  behaviours : List (EntryPoint × Except LocatedFailure (List Behaviour))

namespace Assembly

def behavioursOf? (assembly : Assembly) (signature : String) : Option (List Behaviour) :=
  assembly.behaviours.findSome? fun entry =>
    if entry.1 = .method signature then entry.2.toOption else none

def failures (assembly : Assembly) : List LocatedFailure :=
  (failure? assembly.constructor).toList ++
    assembly.behaviours.filterMap fun entry => failure? entry.2

def report (assembly : Assembly) : FailureReport := FailureReport.empty.addAll assembly.failures

def specification (assembly : Assembly) : Except FailureReport Specification :=
  match assembly.constructor, assembly.behaviours.mapM fun entry => entry.2 with
  | .ok constructor, .ok behaviours =>
      .ok ⟨assembly.contract, assembly.storage, constructor, behaviours.flatten⟩
  | _, _ => .error assembly.report

def eventOf (entry : EntryPoint) : Except LocatedFailure Nat → Event
  | .ok count => .entryAssembled entry count
  | .error failure => .entryRejected entry failure.text

def events (assembly : Assembly) : List Event :=
  eventOf .constructor (assembly.constructor.map fun _ => 1) ::
    assembly.behaviours.map fun entry => eventOf entry.1 (entry.2.map List.length)

end Assembly

namespace ContractSummary

-- The variables that the layout declares. Of two with one name the last counts.
def declarations (summary : ContractSummary) : Table String (Table String StorageDeclaration) :=
  let declared := summary.layout.declarations.map fun stored =>
    (stored.name, (⟨stored.type, stored.slot⟩ : StorageDeclaration))
  Table.empty.insert summary.name (Table.ofList declared)

-- An entry point that has no summary keeps the reason why. Another one needs a layout that can be
-- resolved.
def assembleEntry {α β : Type} (summary : ContractSummary) (entry : EntryPoint)
    (assemble : Resolver → α → Assembling β) :
    Except LocatedFailure α → Except AbsentStore (Except LocatedFailure β)
  | .error failure => return .error failure
  | .ok value => do
      let result ← (do
        let resolver ← Assembling.located (Resolver.ofLayout summary.name summary.layout)
        assemble resolver value : Assembling β).run
      return result.mapError fun failure => ⟨entry, failure⟩

def assemble (idioms : Idioms) (summary : ContractSummary) : Except AbsentStore Assembly := do
  let constructor ← summary.assembleEntry .constructor
    (fun resolver => Assembling.constructor resolver idioms summary.constructor) summary.creation
  let behaviours ← summary.runtime.mapM fun (entry, method) => do
    return (entry, ← summary.assembleEntry entry
      (fun resolver => Assembling.behaviours resolver idioms) method)
  return {
    contract := summary.name
    storage := summary.declarations
    constructor := constructor
    behaviours := behaviours }

end ContractSummary

end SpecRecovery
