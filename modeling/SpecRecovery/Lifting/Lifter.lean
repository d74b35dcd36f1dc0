import SpecRecovery.Failure.Basic
import SpecRecovery.Layout.Resolver
import SpecRecovery.Lifting.Idiom

namespace SpecRecovery

structure Lifter where
  resolver : Resolver
  interface : Interface
  idioms : Idioms

namespace Lifter

open Machine Spec

def argument (lifter : Lifter) (name : String) : Except LiftingError IntExpr :=
  match lifter.interface.argument? name with
  | none => .error (.unknownVariable name)
  | some argument =>
      if argument.type.isElementary then .ok (.var name argument.type)
      else .error (.unsupportedVariableType name argument.type)

-- Only reads of a literal slot of the storage before execution have a meaning.
def read (lifter : Lifter) (key : Machine.Expr) (store : Store) : Except LiftingError IntExpr :=
  match key, store with
  | .lit slot, .abstract => ((lifter.resolver.resolve slot).map IntExpr.pre).mapError .storage
  | _, _ => .error (.unsupportedRead (.sload key store))

-- Whether an atom or a literal denotes the same number as the word that it stands for.
def isUnsigned : IntExpr → Bool
  | .lit _ | .env _ => true
  | .var _ type => type.integerRange.any fun range => 0 ≤ range.1
  | .entry _ item => item.type.integerRange.any fun range => 0 ≤ range.1
  | _ => false

def unsigned? (expr : IntExpr) : Option IntExpr := if isUnsigned expr then some expr else none

-- An operand of an overflow check, unless it is compound or signed. Compound operands are not
-- reduced modulo the size of a word.
def operand? (lifter : Lifter) : Machine.Expr → Except LiftingError (Option IntExpr)
  | .lit value => .ok (unsigned? (.lit value.toInteger))
  | .var name => (lifter.argument name).map unsigned?
  | .env value => .ok (unsigned? (.env value))
  | .sload key store => (lifter.read key store).map unsigned?
  | _ => .ok none

def operands? (lifter : Lifter) (operands : Machine.Expr × Machine.Expr) :
    Except LiftingError (Option (IntExpr × IntExpr)) := do
  match ← lifter.operand? operands.1 with
  | none => return none
  | some first => return (← lifter.operand? operands.2).map fun second => (first, second)

def exprByIdiom? (lifter : Lifter) (idiom : Idiom) (expr : Machine.Expr) :
    Except LiftingError (Option IntExpr) :=
  match idiom.operandsOfExpr? expr with
  | none => .ok none
  | some operands =>
      (lifter.operands? operands).map fun lifted =>
        lifted.map fun (first, second) => .ofBool (idiom.conclusion first second)

def condByIdiom? (lifter : Lifter) (idiom : Idiom) (cond : Cond) :
    Except LiftingError (Option BoolExpr) :=
  match idiom.operandsOfCond? cond with
  | none => .ok none
  | some operands =>
      (lifter.operands? operands).map fun lifted =>
        lifted.map fun (first, second) => idiom.conclusion first second

-- The first answer among the idioms. An error ends the search.
def firstAnswer? {α : Type} (ask : Idiom → Except LiftingError (Option α)) :
    List Idiom → Except LiftingError (Option α)
  | [] => .ok none
  | idiom :: rest => do
      match ← ask idiom with
      | some answer => return some answer
      | none => firstAnswer? ask rest

def truthOf (expr : IntExpr) : BoolExpr := expr.truth?.getD (.intNeq expr (.lit 0))

-- The integer expression for a word. An idiom goes before the structure of the word. Operations
-- that read unsigned words take no signed operands, because these denote other integers.
def expr (lifter : Lifter) (term : Machine.Expr) : Except LiftingError IntExpr := do
  match ← firstAnswer? (lifter.exprByIdiom? · term) lifter.idioms.order with
  | some answer => return answer
  | none =>
      match term with
      | .lit value => return .lit value.toInteger
      | .var name => lifter.argument name
      | .env value => return .env value
      | .binary (.arithmetic op) left right => do
          let left ← lifter.expr left
          let right ← lifter.expr right
          if op.readsUnsigned && (left.mentionsSigned || right.mentionsSigned) then
            throw (.signedOperand term)
          else return .arithmetic op left right
      | .binary (.compare op) left right => do
          let left ← lifter.expr left
          let right ← lifter.expr right
          if left.mentionsSigned || right.mentionsSigned then throw (.signedOperand term)
          else return .ofBool (.compare op left right)
      | .binary .eq left right => do
          let left ← lifter.expr left
          let right ← lifter.expr right
          if left.equatable right then return .ofBool (.intEq left right)
          else throw (.signedOperand term)
      | .isZero number => do return .ofBool (.intEq (← lifter.expr number) (.lit 0))
      | .ite condition first second => do
          let condition ← lifter.expr condition
          let first ← lifter.expr first
          let second ← lifter.expr second
          return .ite (truthOf condition) first second
      | .sload key store => lifter.read key store
      | _ => throw (.unsupportedExpr term)

def truth (lifter : Lifter) (term : Machine.Expr) : Except LiftingError BoolExpr :=
  (lifter.expr term).map truthOf

def cond (lifter : Lifter) (prop : Cond) : Except LiftingError BoolExpr := do
  match ← firstAnswer? (lifter.condByIdiom? · prop) lifter.idioms.order with
  | some answer => return answer
  | none =>
      match prop with
      | .bool value => return .lit value
      | .eq (.word left) (.word right) => do
          let left ← lifter.expr left
          let right ← lifter.expr right
          if left.equatable right then return .intEq left right
          else throw (.signedComparison prop)
      | .eq _ _ => throw (.nonWordComparison prop)
      | .compare op left right => do
          let left ← lifter.expr left
          let right ← lifter.expr right
          if left.mentionsSigned || right.mentionsSigned then throw (.signedComparison prop)
          else return .compare op left right
      | .neg inner => do return .neg (← lifter.cond inner)
      | .join op left right => do
          let left ← lifter.cond left
          let right ← lifter.cond right
          return .join op left right

end Lifter

end SpecRecovery
