import SpecRecovery.Machine.Term
import SpecRecovery.Text.Numeral

namespace SpecRecovery.Machine

inductive Address
  | entrypoint
  | symbolic (name : String)
  | concrete (value : Word)
deriving DecidableEq

namespace Address

def rank : Address → Nat
  | entrypoint => 0
  | symbolic _ => 1
  | concrete _ => 2

def name : Address → String
  | symbolic name => name
  | _ => ""

def value : Address → Word
  | concrete value => value
  | _ => 0

instance : Ord Address :=
  ⟨compareLex (compareOn rank) (compareLex (compareOn name) (compareOn value))⟩

instance : Std.TransOrd Address :=
  inferInstanceAs
    (Std.TransCmp (compareLex (compareOn rank) (compareLex (compareOn name) (compareOn value))))

def text : Address → String
  | entrypoint => "the entrypoint contract"
  | symbolic name => "symbolic address " ++ name
  | concrete value => "address 0x" ++ String.ofList (Text.hexDigits 64 value.toNat)

end Address

-- A path that ran to its end: the conditions under which it is taken, what it returns and the
-- storage that it leaves behind at each address.
structure Branch where
  conditions : List Cond
  returned : Buffer
  storage : Table Address Store
deriving DecidableEq

namespace Branch

def ofStore (conditions : List Cond) (returned : Buffer) (store : Store) : Branch :=
  ⟨conditions, returned, Table.empty.insert .entrypoint store⟩

def entrypointStore? (branch : Branch) : Option Store := branch.storage.find? .entrypoint

def under (conditions : List Cond) (branch : Branch) : Branch :=
  { branch with conditions := conditions ++ branch.conditions }

end Branch

inductive State
  | success (branch : Branch)
  | revert (conditions : List Cond) (reason : String)
  | unfinished (conditions : List Cond) (reason : String)
deriving DecidableEq

namespace State

def isSuccess : State → Bool
  | success _ => true
  | _ => false

def isUnfinished : State → Bool
  | unfinished _ _ => true
  | _ => false

def conditions : State → List Cond
  | success branch => branch.conditions
  | revert conditions _ => conditions
  | unfinished conditions _ => conditions

def under (more : List Cond) : State → State
  | success branch => success (branch.under more)
  | revert conditions reason => revert (more ++ conditions) reason
  | unfinished conditions reason => unfinished (more ++ conditions) reason

def describe (state : State) : String :=
  let suffix := " under " ++ toString state.conditions.length ++ " conditions"
  match state with
  | success _ => "success" ++ suffix
  | revert _ reason => "revert (" ++ reason ++ ")" ++ suffix
  | unfinished _ reason => "partial (" ++ reason ++ ")" ++ suffix

end State

inductive Program
  | done (state : State)
  | ite (condition : Expr) (first second : Program)
deriving DecidableEq

namespace Program

-- The ends from left to right below a path, each with the conditions that lead there in front.
def flattenBelow (path : List Cond) : Program → List State
  | done state => [state.under path]
  | ite condition first second =>
      let isZero := Cond.eqWords condition (.lit 0)
      first.flattenBelow (path ++ [.neg isZero]) ++ second.flattenBelow (path ++ [isZero])

-- The first side of a conditional is taken if its condition is not zero, the second if it is.
def flatten (program : Program) : List State := program.flattenBelow []

end Program

end SpecRecovery.Machine
