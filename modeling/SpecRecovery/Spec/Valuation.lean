import SpecRecovery.Failure.Basic
import SpecRecovery.Layout.Resolver
import SpecRecovery.Machine.Assignment
import SpecRecovery.Spec.Specification

namespace SpecRecovery.Spec

-- Reads a word as a value of a type. Signed types read all of it as two's complement, so that a
-- word outside its type stays visible.
def interpret (word : Word) (type : AbiType) : Int :=
  if type.isSigned then word.toSigned Word.sizeBits else word.toInteger

-- Values for everything that an expression can mention. Calldata and environment are words, stored
-- calldata are integers by name. A variable without a value after the transition has not changed.
structure Valuation where
  calldata : Table String Word
  environment : Table Environment Word
  pre : Table String Int
  post : Table String Int
deriving DecidableEq

-- Exponents above this are refused, because their powers need too many digits.
def maximumExponent : Int := 1024

-- The power of an integer. The bases with powers of one digit take any exponent that is not
-- negative.
def power (base exponent : Int) : Except Unevaluable Int :=
  if exponent < 0 then throw (.negativeExponent exponent)
  else if base = 0 ∨ base = 1 then return if exponent = 0 then 1 else base
  else if base = -1 then return if exponent % 2 = 0 then 1 else base
  else if exponent ≤ maximumExponent then return Int.pow base exponent.toNat
  else throw (.largeExponent exponent)

namespace Valuation

def empty : Valuation := ⟨.empty, .empty, .empty, .empty⟩

instance : Inhabited Valuation := ⟨empty⟩

def ofAssignment (assignment : Assignment) : Valuation :=
  { empty with calldata := assignment.calldata, environment := assignment.environment }

-- Every item that a resolver knows has the value that its slot holds in the assignment.
def ofStorage (assignment : Assignment) (resolver : Resolver) : Valuation :=
  { ofAssignment assignment with
    pre := Table.ofList <| resolver.resolvable.map fun (slot, item) =>
      (item.name, interpret (assignment.storedValue slot) item.type) }

def withPre (valuation : Valuation) (name : String) (value : Int) : Valuation :=
  { valuation with pre := valuation.pre.insert name value }

def preValue (valuation : Valuation) (name : String) : Int := (valuation.pre.find? name).getD 0

def postValue (valuation : Valuation) (name : String) : Int :=
  (valuation.post.find? name).getD (valuation.preValue name)

end Valuation

mutual

-- The integer that an expression denotes. A divisor is evaluated first, and the dividend only if
-- the divisor is not zero. Quotients are cut off towards zero.
def IntExpr.eval (valuation : Valuation) : IntExpr → Except Unevaluable Int
  | .lit value => return value
  | .var name type => return interpret ((valuation.calldata.find? name).getD 0) type
  | .env value => return ((valuation.environment.find? value).getD 0).toInteger
  | .entry .pre item => return valuation.preValue item.name
  | .entry .post item => return valuation.postValue item.name
  | .arithmetic .add left right => do
      let left ← left.eval valuation
      return left + (← right.eval valuation)
  | .arithmetic .sub left right => do
      let left ← left.eval valuation
      return left - (← right.eval valuation)
  | .arithmetic .mul left right => do
      let left ← left.eval valuation
      return left * (← right.eval valuation)
  | .arithmetic .div dividend divisor => do
      let divisor ← divisor.eval valuation
      if divisor = 0 then return 0
      else return (← dividend.eval valuation).tdiv divisor
  | .arithmetic .mod dividend divisor => do
      let divisor ← divisor.eval valuation
      if divisor = 0 then return 0
      else return (← dividend.eval valuation).tmod divisor
  | .arithmetic .exp base exponent => do
      let base ← base.eval valuation
      power base (← exponent.eval valuation)
  | .ite condition first second => do
      if ← condition.eval valuation then first.eval valuation else second.eval valuation

-- The truth that an expression denotes. The right side of a connective is evaluated only if the
-- left one does not decide.
def BoolExpr.eval (valuation : Valuation) : BoolExpr → Except Unevaluable Bool
  | .lit value => return value
  | .join op left right => do
      match op.decided? (← left.eval valuation) with
      | some truth => return truth
      | none => right.eval valuation
  | .neg value => do return !(← value.eval valuation)
  | .compare op left right => do
      let left ← left.eval valuation
      return op.onIntegers left (← right.eval valuation)
  | .eq equation => equation.eval valuation
  | .neq equation => do return !(← equation.eval valuation)
  | .inRange type value => do
      match type.integerRange with
      | some (low, high) =>
          let value ← value.eval valuation
          return low ≤ value && value < high
      | none => throw (.noRange type)

-- Byte strings and contracts have no values. They are equal if they are written alike, and nothing
-- is known otherwise.
def Equation.eval (valuation : Valuation) : Equation → Except Unevaluable Bool
  | .integer left right => do
      let left ← left.eval valuation
      return left == (← right.eval valuation)
  | .boolean left right => do
      let left ← left.eval valuation
      return left == (← right.eval valuation)
  | .byteString left right =>
      if left = right then return true else throw (.distinctTerms .byteString)
  | .contract left right => if left = right then return true else throw (.distinctTerms .contract)

end

namespace Valuation

-- The state after a transition. All updates are evaluated before any takes effect.
def apply (valuation : Valuation) (updates : List StorageUpdate) :
    Except Unevaluable Valuation := do
  let values ← updates.mapM fun update => do
    return (update.item.name, ← update.value.eval valuation)
  return { valuation with post := valuation.post.insertAll values }

end Valuation

end SpecRecovery.Spec
