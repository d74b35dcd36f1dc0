import SpecRecovery.Layout.Resolver
import SpecRecovery.Lowering.Condition
import SpecRecovery.Machine.Program
import SpecRecovery.Spec.Specification

namespace SpecRecovery

-- What the new value of a stored variable becomes: a word, and the range facts about it. The value
-- can be an operand within a range fact only if it is an atom that is not signed or a literal.
structure LoweredUpdate where
  isOperand : Bool
  expr : Except VerificationError Machine.Expr
  range : AbiType → Nat → Except VerificationError Machine.Cond

-- Turns specifications back into machine terms, over a storage before the transition and, where
-- there is one, the storage after it.
structure Lowerer where
  resolver : Resolver
  pre : Machine.Store
  post : Option Machine.Store
  update? : String → Option LoweredUpdate

namespace Lowerer

open Machine Spec

def before (resolver : Resolver) (pre : Store) : Lowerer := ⟨resolver, pre, none, fun _ => none⟩

def slot (lowerer : Lowerer) (item : StorageItem) : Except VerificationError Word :=
  if item.contract ≠ lowerer.resolver.contract then
    throw (.uncompilable (.foreignItem item lowerer.resolver.contract))
  else
    match lowerer.resolver.slotOf? item.name with
    | some slot => return slot
    | none => throw (.uncompilable (.noSlot item))

def store (lowerer : Lowerer) : Timing → Except VerificationError Store
  | .pre => return lowerer.pre
  | .post =>
      match lowerer.post with
      | some post => return post
      | none => throw (.uncompilable .noPostState)

def read (lowerer : Lowerer) (timing : Timing) (item : StorageItem) :
    Except VerificationError Machine.Expr := do
  let slot ← lowerer.slot item
  return .sload (.lit slot) (← lowerer.store timing)

def arithmetic (op : Arithmetic) (left right : IntExpr)
    (leftTerm rightTerm : Except VerificationError Machine.Expr) :
    Except VerificationError Machine.Expr := do
  if op.readsUnsigned && (left.mentionsSigned || right.mentionsSigned) then
    throw (.uncompilable (.signedOperand (.integer (.arithmetic op left right))))
  let leftTerm ← leftTerm
  return .binary (.arithmetic op) leftTerm (← rightTerm)

def toWord (cond : Cond) : Except VerificationError Machine.Expr :=
  cond.toExpr.mapError .uncompilable

def isPlainOperand : IntExpr → Bool
  | .lit _ | .env _ => true
  | .var _ type => !type.isSigned
  | .entry _ item => !item.type.isSigned
  | .arithmetic _ _ _ | .ite _ _ _ => false

def replacement? (lowerer : Lowerer) : IntExpr → Option LoweredUpdate
  | .entry .post item => lowerer.update? item.name
  | _ => none

def isOperand (lowerer : Lowerer) (value : IntExpr) : Bool :=
  match lowerer.replacement? value with
  | some update => update.isOperand
  | none => isPlainOperand value

def operand (lowerer : Lowerer) (value : IntExpr)
    (term : Except VerificationError Machine.Expr) : Except VerificationError Machine.Expr :=
  match lowerer.replacement? value with
  | some update => update.expr
  | none => term

-- The bits of a signed type that are left beside the sign. A width is a count of 64 bits, so that
-- one less than no bits at all is the greatest count.
def magnitudeBits (width : Nat) : Nat := if width = 0 then twoTo 64 - 1 else width - 1

-- The word of an atom stands for an integer of the type. Signed atoms that are not negative are
-- below half of the words, and a signed type has as many values from zero on. A signed atom is in a
-- signed type if its word is what the low bytes extend to.
def atomRange (type : AbiType) (width : Nat) (signed : Bool) (term : Machine.Expr) : Cond :=
  match type.isSigned, signed with
  | false, false => .withinBits term width
  | false, true => .withinBits term (min width (Word.sizeBits - 1))
  | true, false => .withinBits term (magnitudeBits width)
  | true, true =>
      if Word.sizeBits ≤ width then .bool true
      else
        let bytes := BitVec.ofNat 256 (width / 8 - 1)
        .eqWords (.binary .extendSign (.lit bytes) term) term

-- The result of the operation on unsigned operands is the same on words as on integers.
def exact : Arithmetic → Machine.Expr → Machine.Expr → Cond
  | .add, left, right => .geq (left.add right) left
  | .sub, left, right => .geq left right
  | .mul, left, right =>
      .either (.eqWords left (.lit 0)) (.eqWords ((left.mul right).div left) right)
  | _, _, _ => .bool true

def signedDifference (bits : Nat) (left right : Machine.Expr) : Cond :=
  .either
    (.both (.geq left right) (.lt (left.sub right) (.powerOfTwo bits)))
    (.both (.lt left right) (.leq (right.sub left) (.powerOfTwo bits)))

def arithmeticRange (type : AbiType) (width : Nat) (op : Arithmetic)
    (left right : Machine.Expr) (result : Except VerificationError Machine.Expr) :
    Except VerificationError Cond :=
  if op = .sub && type.isSigned then return signedDifference (magnitudeBits width) left right
  else do
    let bits := if type.isSigned then magnitudeBits width else width
    return .both (exact op left right) (.withinBits (← result) bits)

mutual

-- The word that wraps the integer. Only a range fact tells whether the two are the same.
def expr (lowerer : Lowerer) : IntExpr → Except VerificationError Machine.Expr
  | .lit value =>
      match Word.ofInteger? value with
      | some word => return .lit word
      | none => throw (.literalOutOfRange value)
  | .var name _ => return .var name
  | .env value => return .env value
  | .entry timing item => lowerer.read timing item
  | .arithmetic op left right => arithmetic op left right (lowerer.expr left) (lowerer.expr right)
  | .ite condition first second => do
      let condition ← toWord (← lowerer.cond condition)
      let first ← lowerer.expr first
      return .ite condition first (← lowerer.expr second)

def cond (lowerer : Lowerer) : BoolExpr → Except VerificationError Cond
  | .lit value => return .bool value
  | .join op left right => do
      let left ← lowerer.cond left
      return .join op left (← lowerer.cond right)
  | .neg value => do return .neg (← lowerer.cond value)
  | .compare op left right => do
      if left.mentionsSigned || right.mentionsSigned then
        throw (.uncompilable (.signedOperand (.boolean (.compare op left right))))
      let left ← lowerer.expr left
      return .compare op left (← lowerer.expr right)
  | .eq equation => lowerer.equation equation
  | .neq equation => do return .neg (← lowerer.equation equation)
  | .inRange type value =>
      match type.integerWidth with
      | some width => lowerer.range type width value
      | none => throw (.uncompilable (.noRange type))

def equation (lowerer : Lowerer) : Equation → Except VerificationError Cond
  | .integer left right => do
      if !left.equatable right then throw (.uncompilable (.unequatable left right))
      let left ← lowerer.expr left
      return .eqWords left (← lowerer.expr right)
  | .boolean left right => do
      let left ← toWord (← lowerer.cond left)
      return .eqWords left (← toWord (← lowerer.cond right))
  | .byteString _ _ => throw (.uncompilable (.equationKind .byteString))
  | .contract _ _ => throw (.uncompilable (.equationKind .contract))

-- A range fact holds exactly if the integer itself is in the range, although the word may wrap. So
-- nothing but atoms, conditionals and single operations on unsigned operands has one.
def range (lowerer : Lowerer) (type : AbiType) (width : Nat) :
    IntExpr → Except VerificationError Cond
  | .lit value =>
      return .bool (type.integerRange.any fun range => range.1 ≤ value && value < range.2)
  | .var name varType => return atomRange type width varType.isSigned (.var name)
  | .env value => return atomRange type width false (.env value)
  | .entry timing item =>
      match lowerer.replacement? (.entry timing item) with
      | some update => update.range type width
      | none => do return atomRange type width item.type.isSigned (← lowerer.read timing item)
  | .arithmetic .exp left right =>
      throw (.uncompilable (.powerRange (.arithmetic .exp left right)))
  | .arithmetic op left right => do
      if !(lowerer.isOperand left && lowerer.isOperand right) then
        throw (.uncompilable (.compoundRange (.arithmetic op left right)))
      let leftTerm := lowerer.expr left
      let rightTerm := lowerer.expr right
      let first ← lowerer.operand left leftTerm
      let second ← lowerer.operand right rightTerm
      arithmeticRange type width op first second (arithmetic op left right leftTerm rightTerm)
  | .ite condition first second => do
      let condition ← lowerer.cond condition
      let first ← lowerer.range type width first
      let second ← lowerer.range type width second
      return .either (.both condition first) (.both condition.opposite second)

end

def truthExpr (lowerer : Lowerer) (value : BoolExpr) :
    Except VerificationError Machine.Expr := do
  toWord (← lowerer.cond value)

def lowerUpdate (lowerer : Lowerer) (value : IntExpr) : LoweredUpdate :=
  ⟨isPlainOperand value, lowerer.expr value, fun type width => lowerer.range type width value⟩

-- Adds the state after the transition, which comes from the one before by the updates. The last of
-- several updates of one name counts.
def withPost (lowerer : Lowerer) (post : Store) (updates : List StorageUpdate) : Lowerer :=
  let values := Table.ofList (updates.map fun update => (update.item.name, update.value))
  { lowerer with
    post := some post
    update? := fun name => (values.find? name).map lowerer.lowerUpdate }

def updates (lowerer : Lowerer) (base : Store) (updates : List StorageUpdate) :
    Except VerificationError Store :=
  updates.foldlM (fun store update => do
    let slot ← lowerer.slot update.item
    return .write (.lit slot) (← lowerer.expr update.value) store) base

def conditions (lowerer : Lowerer) (preconditions : List BoolExpr) :
    Except VerificationError (List Cond) := do
  return (← preconditions.mapM lowerer.cond).filter (· != .bool true)

def constructorBranch (resolver : Resolver) (constructor : Constructor)
    (runtimeCode : List UInt8) : Except VerificationError Branch := do
  let initial := before resolver .empty
  let store ← initial.updates .empty constructor.initialStorage
  let lowerer := initial.withPost store constructor.initialStorage
  let conditions ← lowerer.conditions constructor.preconditions
  return .ofStore conditions (.concrete runtimeCode) store

def behaviourBranch (resolver : Resolver) (behaviour : Behaviour) :
    Except VerificationError Branch := do
  let initial := before resolver .abstract
  let store ← initial.updates .abstract behaviour.storageUpdates
  let lowerer := initial.withPost store behaviour.storageUpdates
  let conditions ← lowerer.conditions behaviour.preconditions
  let returned ←
    match behaviour.returns with
    | some value => do pure (Buffer.ofWord (← lowerer.expr value))
    | none => pure Buffer.empty
  return .ofStore conditions returned store

end Lowerer

end SpecRecovery
