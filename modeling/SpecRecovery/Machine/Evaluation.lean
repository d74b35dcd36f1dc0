import SpecRecovery.Failure.Basic
import SpecRecovery.Keccak
import SpecRecovery.Machine.Assignment

namespace SpecRecovery.Machine

def maximumOffset : Nat := 0x10000

-- The bytes with a word written over them at an offset, where zeros fill a gap.
def overwrite (bytes : List UInt8) (offset : Nat) (value : Word) : List UInt8 :=
  bytes.take offset ++ (List.replicate (offset - bytes.length) 0 ++
    (value.toBytes ++ bytes.drop (offset + Word.sizeBytes)))

mutual

-- The value of a word under an assignment. Both operands are evaluated, the left one first, but
-- of a conditional only the case that is taken.
def Expr.eval (assignment : Assignment) : Expr → Except Unevaluable Word
  | .lit value => return value
  | .var name => return assignment.variableValue name
  | .env value => return assignment.environmentValue value
  | .selector => return assignment.selector
  | .binary op left right => do
      let left ← left.eval assignment
      let right ← right.eval assignment
      return op.onWords left right
  | .isZero number => do return Word.ofBool ((← number.eval assignment) == 0)
  | .not value => do return ~~~(← value.eval assignment)
  | .ite condition first second => do
      if (← condition.eval assignment) = 0 then second.eval assignment
      else first.eval assignment
  | .sload key store => do store.read assignment (← key.eval assignment)
  | .keccak data => do return Word.ofBytes (Keccak.hash (← data.bytes assignment))

def Store.read (assignment : Assignment) (slot : Word) : Store → Except Unevaluable Word
  | .abstract => return assignment.storedValue slot
  | .concrete slots => return (slots.find? slot).getD 0
  | .write key value prior => do
      if (← key.eval assignment) = slot then value.eval assignment
      else prior.read assignment slot

def Buffer.bytes (assignment : Assignment) : Buffer → Except Unevaluable (List UInt8)
  | .concrete bytes => return bytes
  | .abstract name => throw (.abstractBuffer name)
  | .write offset value base => do
      match (← offset.eval assignment).toOffset? with
      | some offset =>
          if offset ≤ maximumOffset then
            let value ← value.eval assignment
            return overwrite (← base.bytes assignment) offset value
          else throw .distantWrite
      | none => throw .distantWrite

end

-- Whether a proposition holds under an assignment. The right side of a connective is evaluated only
-- if the left one does not decide.
def Cond.holds (assignment : Assignment) : Cond → Except Unevaluable Bool
  | .bool value => return value
  | .eq (.word left) (.word right) => do
      let left ← left.eval assignment
      let right ← right.eval assignment
      return left == right
  | .eq (.buffer left) (.buffer right) => do
      let left ← left.bytes assignment
      let right ← right.bytes assignment
      return left == right
  | .eq left right => throw (.incomparable (.eq left right))
  | .compare op left right => do
      let left ← left.eval assignment
      let right ← right.eval assignment
      return op.onWords left right
  | .neg inner => do return !(← inner.holds assignment)
  | .join op left right => do
      match op.decided? (← left.holds assignment) with
      | some truth => return truth
      | none => right.holds assignment

-- Whether all propositions hold. Those after the first that fails are not evaluated.
def allHold (assignment : Assignment) : List Cond → Except Unevaluable Bool
  | [] => return true
  | cond :: rest => do
      if ← cond.holds assignment then allHold assignment rest
      else return false

-- Adds the writes of a store below those that are already known. A slot that is written keeps the
-- value of its most recent write, and the abstract base says nothing about any slot.
def Store.writesBelow (known : Table Word Expr) : Store → Except StorageError (Table Word Expr)
  | .abstract => return known
  | .concrete slots =>
      return slots.entries.foldl (fun known entry => known.insertNew entry.1 (.lit entry.2)) known
  | .write key value prior =>
      match key.literal? with
      | some slot => prior.writesBelow (known.insertNew slot value)
      | none => throw (.symbolicKey key)

def Store.writes (store : Store) : Except StorageError (Table Word Expr) :=
  store.writesBelow .empty

-- The 32 bytes from a position on, where zeros follow the last one. Positions are counts of 64
-- bits, so that the greatest has the first after it.
def wordBytes (bytes : List UInt8) (offset : Nat) : List UInt8 :=
  (List.range Word.sizeBytes).map fun index => bytes.getD ((offset + index) % twoTo 64) 0

-- The word at an offset, if the shape of the buffer tells it. A write is passed over if the two
-- words do not overlap.
def Buffer.wordAt? (offset : Nat) : Buffer → Option Expr
  | .concrete bytes => some (.lit (.ofBytes (wordBytes bytes offset)))
  | .abstract _ => none
  | .write position value base => do
      let written ← (← position.literal?).toOffset?
      if written = offset then some value
      else if written + Word.sizeBytes ≤ offset ∨ offset + Word.sizeBytes ≤ written then
        base.wordAt? offset
      else none

end SpecRecovery.Machine
