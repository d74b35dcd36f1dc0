import SpecRecovery.Contract
import SpecRecovery.Layout.Basic
import SpecRecovery.Spec.Expression
import SpecRecovery.Table

namespace SpecRecovery

namespace Spec

structure StorageDeclaration where
  type : SlotType
  slot : Word
deriving DecidableEq

-- A stored variable and its new value, which is an expression about the state before.
structure StorageUpdate where
  item : StorageItem
  value : IntExpr
deriving DecidableEq

structure Constructor where
  contract : String
  interface : Interface
  preconditions : List BoolExpr
  initialStorage : List StorageUpdate
deriving DecidableEq

-- One successful path through a method, counted among the successful paths of that method.
structure Behaviour where
  name : String
  contract : String
  interface : Interface
  branch : Nat
  preconditions : List BoolExpr
  storageUpdates : List StorageUpdate
  returns : Option IntExpr
deriving DecidableEq

namespace Behaviour

def entryPoint (behaviour : Behaviour) : EntryPoint := .method behaviour.interface.signature

def reads (behaviour : Behaviour) : List IntExpr :=
  behaviour.preconditions.flatMap BoolExpr.visited ++
    behaviour.storageUpdates.flatMap (fun update => update.value.visited) ++
    (behaviour.returns.map IntExpr.visited).getD []

end Behaviour

namespace Constructor

def reads (constructor : Constructor) : List IntExpr :=
  constructor.preconditions.flatMap BoolExpr.visited ++
    constructor.initialStorage.flatMap fun update => update.value.visited

end Constructor

end Spec

-- Declared variables by the name of their contract and their own name, what the creation does, and
-- the behaviours of all methods in order.
structure Specification where
  contract : String
  storage : Table String (Table String Spec.StorageDeclaration)
  constructor : Spec.Constructor
  behaviours : List Spec.Behaviour
deriving DecidableEq

namespace Specification

def behavioursOf (specification : Specification) (signature : String) : List Spec.Behaviour :=
  specification.behaviours.filter fun behaviour => behaviour.interface.signature == signature

end Specification

end SpecRecovery
