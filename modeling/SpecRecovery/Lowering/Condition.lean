import SpecRecovery.Failure.Basic

namespace SpecRecovery.Machine

namespace Expr

def powerOfTwo (bits : Nat) : Expr := .lit (Word.lowMask bits + 1)

end Expr

namespace Cond

def toExpr : Cond → Except Uncompilable Expr
  | .bool value => return .lit (Word.ofBool value)
  | .eq (.word left) (.word right) => return left.equals right
  | .eq _ _ => throw .nonWordComparison
  | .compare op left right => return .binary (.compare op) left right
  | .neg inner => do return .isZero (← inner.toExpr)
  | .join .and left right => do
      let left ← left.toExpr
      return .binary .and left (← right.toExpr)
  | .join .or left right => do
      let left ← left.toExpr
      return .binary .or left (← right.toExpr)
  | .join .impl left right => do
      let left ← left.toExpr
      return .binary .or (.isZero left) (← right.toExpr)

-- The word is below 2 to the power `bits`, which every word is from 256 bits on.
def withinBits (expr : Expr) (bits : Nat) : Cond :=
  if Word.sizeBits ≤ bits then .bool true else .lt expr (.powerOfTwo bits)

-- A conjunction that leaves out what is known to hold.
def both : Cond → Cond → Cond
  | .bool true, right => right
  | left, .bool true => left
  | .bool false, _ => .bool false
  | _, .bool false => .bool false
  | left, right => .join .and left right

def either : Cond → Cond → Cond
  | .bool false, right => right
  | left, .bool false => left
  | .bool true, _ => .bool true
  | _, .bool true => .bool true
  | left, right => .join .or left right

def opposite : Cond → Cond
  | .bool value => .bool !value
  | .neg inner => inner
  | cond => .neg cond

end Cond

end SpecRecovery.Machine
