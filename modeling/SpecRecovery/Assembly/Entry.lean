import SpecRecovery.Exploration.Summary
import SpecRecovery.Lifting.Lifter
import SpecRecovery.Machine.Evaluation
import SpecRecovery.Spec.Canonical
import SpecRecovery.Spec.Specification

namespace SpecRecovery

-- A path that ends well although nothing is known about the storage of the contract itself. No
-- engine answers this, and there is nothing to say about such a path.
inductive AbsentStore
  | entrypoint
deriving DecidableEq

def AbsentStore.message : AbsentStore → String
  | entrypoint => "Successful branch has no storage for the entrypoint contract"

-- What is assembled may fail for its own reasons, but an absent storage ends everything.
abbrev Assembling := ExceptT Failure (Except AbsentStore)

namespace Assembling

open Machine Spec

def lifted {α : Type} : Except LiftingError α → Assembling α
  | .ok value => return value
  | .error error => throw (.lifting error)

def located {α : Type} : Except StorageError α → Assembling α
  | .ok value => return value
  | .error error => throw (.storage error)

-- The conditions of a path in canonical form. Conjunctions are taken apart and repetitions left
-- out.
def preconditions (lifter : Lifter) (conditions : List Cond) : Assembling (List BoolExpr) := do
  let exprs ← conditions.mapM fun cond => lifted (lifter.cond cond)
  return (exprs.flatMap fun expr => expr.canonical.conjuncts).eraseDups

def foreignWrite? (branch : Branch) : Option Address :=
  (branch.storage.entries.find? fun entry => entry.1 ≠ .entrypoint ∧ entry.2.hasWrites).map Prod.fst

def storageUpdates (lifter : Lifter) (branch : Branch) : Assembling (List StorageUpdate) := do
  if let some address := foreignWrite? branch then throw (.assembly (.foreignWrite address))
  match branch.entrypointStore? with
  | none => ExceptT.lift (.error .entrypoint)
  | some store =>
      let writes ← located store.writes
      writes.entries.mapM fun (slot, value) => do
        let item ← located (lifter.resolver.resolve slot)
        return ⟨item, ← lifted (lifter.expr value)⟩

-- Every variable that can be resolved gets a value from the creation, which is zero unless the code
-- writes it.
def initialStorage (resolver : Resolver) (updates : List StorageUpdate) : List StorageUpdate :=
  let written := Table.ofList (updates.map fun update => (update.item.name, update.value))
  resolver.resolvable.map fun (_, item) => ⟨item, (written.find? item.name).getD (.lit 0)⟩

-- Creation code has to have one successful path.
def constructor (resolver : Resolver) (idioms : Idioms) (interface : Interface) :
    List Branch → Assembling Constructor
  | [branch] => do
      let lifter : Lifter := ⟨resolver, interface, idioms⟩
      let preconditions ← preconditions lifter branch.conditions
      let updates ← storageUpdates lifter branch
      return {
        contract := resolver.contract
        interface := interface
        preconditions := preconditions
        initialStorage := initialStorage resolver updates }
  | branches => throw (.assembly (.creationBranchCount branches.length))

def returnsWord : List AbiType → Except AssemblyError Bool
  | [] => return false
  | [type] =>
      if type.isDynamic then throw (.dynamicReturn type)
      else
        match type with
        | .tuple _ => throw (.tupleReturn type)
        | .function => throw .functionReturn
        | .array _ _ => throw (.arrayReturn type)
        | _ => return true
  | outputs => throw (.multipleReturns outputs.length)

def returned (lifter : Lifter) (branch : Branch) : Assembling IntExpr :=
  match branch.returned.wordAt? 0 with
  | some word => lifted (lifter.expr word)
  | none => throw (.assembly (.unsupportedReturnBuffer branch.returned))

def behaviour (lifter : Lifter) (word : Bool) (branch : Branch) (number : Nat) :
    Assembling Behaviour := do
  let preconditions ← preconditions lifter branch.conditions
  let storageUpdates ← storageUpdates lifter branch
  let returns ← if word then some <$> returned lifter branch else pure none
  return {
    name := lifter.interface.name
    contract := lifter.resolver.contract
    interface := lifter.interface
    branch := number
    preconditions := preconditions
    storageUpdates := storageUpdates
    returns := returns }

def behaviours (resolver : Resolver) (idioms : Idioms) (summary : MethodSummary) :
    Assembling (List Behaviour) :=
  match returnsWord summary.method.outputs with
  | .error error => throw (.assembly error)
  | .ok word =>
      let lifter : Lifter := ⟨resolver, summary.method.interface, idioms⟩
      summary.branches.zipIdx.mapM fun (branch, number) => behaviour lifter word branch number

end Assembling

end SpecRecovery
