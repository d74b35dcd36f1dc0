import SpecRecovery.Machine.Program

namespace SpecRecovery.Sampling

open Machine

-- Something that an assignment gives a value to, or a literal, which suggests values to try.
inductive Atom
  | calldata (name : String)
  | environment (value : Environment)
  | slot (slot : Word)
  | literal (value : Word)
  | selector
deriving DecidableEq

def slotOfKey (key : Expr) : List Atom := key.literal?.toList.map .slot

mutual

def ofExpr : Expr → List Atom
  | .lit value => [.literal value]
  | .var name => [.calldata name]
  | .env value => [.environment value]
  | .selector => [.selector]
  | .binary _ left right => ofExpr left ++ ofExpr right
  | .isZero number => ofExpr number
  | .not value => ofExpr value
  | .ite condition first second => ofExpr condition ++ ofExpr first ++ ofExpr second
  | .sload key store => slotOfKey key ++ ofExpr key ++ ofStore store
  | .keccak data => ofBuffer data

def ofStore : Store → List Atom
  | .abstract => []
  | .concrete slots => slots.keys.map .slot
  | .write key value prior => slotOfKey key ++ ofExpr key ++ ofExpr value ++ ofStore prior

def ofBuffer : Buffer → List Atom
  | .concrete _ => []
  | .abstract _ => []
  | .write offset value base => ofExpr offset ++ ofExpr value ++ ofBuffer base

end

def ofOperand : Operand → List Atom
  | .word value => ofExpr value
  | .buffer value => ofBuffer value
  | .store value => ofStore value

def ofCond : Cond → List Atom
  | .bool _ => []
  | .eq left right => ofOperand left ++ ofOperand right
  | .compare _ left right => ofExpr left ++ ofExpr right
  | .neg inner => ofCond inner
  | .join _ left right => ofCond left ++ ofCond right

-- Whatever a path depends on, the storage of other contracts included.
def ofBranch (branch : Branch) : List Atom :=
  branch.conditions.flatMap ofCond ++ ofBuffer branch.returned ++
    branch.storage.values.flatMap ofStore

def ofState (state : State) : List Atom := state.conditions.flatMap ofCond

def slotsOf (atoms : List Atom) : List Word :=
  Table.ascendingKeys <| atoms.filterMap fun atom =>
    match atom with
    | .slot slot => some slot
    | _ => none

end SpecRecovery.Sampling
