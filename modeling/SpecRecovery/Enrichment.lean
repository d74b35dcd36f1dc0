import SpecRecovery.Event
import SpecRecovery.Spec.Specification

namespace SpecRecovery

namespace Spec

-- That the integer inhabits the type, if the type holds integers.
def rangeFact? (type : AbiType) (value : IntExpr) : Option BoolExpr :=
  if type.integerRange.isSome then some (.inRange type value) else none

def argumentFacts (interface : Interface) : List BoolExpr :=
  interface.arguments.filterMap fun argument =>
    rangeFact? argument.type (.var argument.name argument.type)

def environmentFact (value : Environment) : BoolExpr := .inRange value.type (.env value)

def environmentOf (exprs : List IntExpr) : List Environment :=
  (exprs.filterMap fun expr =>
    match expr with
    | .env value => some value
    | _ => none).eraseDups

def itemsOf (exprs : List IntExpr) : List StorageItem :=
  (exprs.filterMap fun expr =>
    match expr with
    | .entry _ item => some item
    | _ => none).eraseDups

def storageFacts (item : StorageItem) : List BoolExpr :=
  (rangeFact? item.type (.pre item)).toList ++ (rangeFact? item.type (.post item)).toList

def facts (interface : Interface) (reads : List IntExpr) : List BoolExpr :=
  argumentFacts interface ++ (environmentOf reads).map environmentFact ++
    (itemsOf reads).flatMap storageFacts

def extend (preconditions facts : List BoolExpr) : List BoolExpr :=
  facts.foldl
    (fun known fact => if known.contains fact then known else known ++ [fact]) preconditions

def Constructor.enrich (constructor : Constructor) : Constructor :=
  { constructor with
    preconditions :=
      extend constructor.preconditions (facts constructor.interface constructor.reads) }

def Behaviour.enrich (behaviour : Behaviour) : Behaviour :=
  { behaviour with
    preconditions := extend behaviour.preconditions (facts behaviour.interface behaviour.reads) }

end Spec

namespace Specification

open Spec

-- States as preconditions that everything inhabits its type. The machine guarantees it, but nothing
-- else in a specification of unbounded integers says so.
def enrich (specification : Specification) : Specification :=
  { specification with
    constructor := specification.constructor.enrich
    behaviours := specification.behaviours.map Behaviour.enrich }

def enriched (entry : EntryPoint) (before after : List BoolExpr) : Event :=
  .preconditionsEnriched entry (after.length - before.length)

def enrichmentEvents (specification : Specification) : List Event :=
  let constructor := specification.constructor
  enriched .constructor constructor.preconditions constructor.enrich.preconditions ::
    specification.behaviours.map fun behaviour =>
      enriched behaviour.entryPoint behaviour.preconditions behaviour.enrich.preconditions

end Specification

end SpecRecovery
