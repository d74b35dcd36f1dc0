import SpecRecovery.Spec.Expression

namespace SpecRecovery.Spec

namespace BoolExpr

def negate : BoolExpr → BoolExpr
  | neg value => value
  | other => neg other

-- What the comparison of a truth, written as an integer, with the literal 1 or 0 says.
def ofTruthAndLiteral? (truth literal : IntExpr) (positive : Bool) : Option BoolExpr := do
  let condition ← truth.truth?
  let holds ←
    if literal.isLit 1 then some positive
    else if literal.isLit 0 then some !positive
    else none
  return if holds then condition else negate condition

-- The equation of two integers, or its negation, unless it only compares a truth with a literal.
def ofIntegers (left right : IntExpr) (positive : Bool) : BoolExpr :=
  match (ofTruthAndLiteral? left right positive).or (ofTruthAndLiteral? right left positive) with
  | some condition => condition
  | none => if positive then eq (.integer left right) else neq (.integer left right)

end BoolExpr

-- Removes double negations and comparisons of truths with the literals that stand for them, from
-- the inside out and at every depth.
mutual

def IntExpr.canonical : IntExpr → IntExpr
  | .arithmetic op left right => .arithmetic op left.canonical right.canonical
  | .ite condition first second => .ite condition.canonical first.canonical second.canonical
  | .lit value => .lit value
  | .var name type => .var name type
  | .env value => .env value
  | .entry timing item => .entry timing item

def BoolExpr.canonical : BoolExpr → BoolExpr
  | .lit value => .lit value
  | .join op left right => .join op left.canonical right.canonical
  | .neg value => value.canonical.negate
  | .compare op left right => .compare op left.canonical right.canonical
  | .eq equation => equation.canonical true
  | .neq equation => equation.canonical false
  | .inRange type value => .inRange type value.canonical

def Equation.canonical (positive : Bool) : Equation → BoolExpr
  | .integer left right => .ofIntegers left.canonical right.canonical positive
  | .boolean left right =>
      let equation := Equation.boolean left.canonical right.canonical
      if positive then .eq equation else .neq equation
  | .byteString left right =>
      if positive then .eq (.byteString left right) else .neq (.byteString left right)
  | .contract left right =>
      if positive then .eq (.contract left right) else .neq (.contract left right)

end

end SpecRecovery.Spec
