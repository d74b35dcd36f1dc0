import SpecRecovery.Json.Values
import SpecRecovery.Machine.Term
import SpecRecovery.Spec.Expression

namespace SpecRecovery

-- An overflow check that compilers emit, which specifications state as a range fact.
inductive Idiom
  | additionOverflow
  | multiplicationOverflow
deriving DecidableEq

namespace Idiom

open Machine

def name : Idiom → String
  | additionOverflow => "AdditionOverflow"
  | multiplicationOverflow => "MultiplicationOverflow"

-- The word whose bitwise complement is written as an exclusive or with all ones.
def complemented? : Expr → Option Expr
  | .binary .xor left right =>
      if right.isLit Word.max then some left
      else if left.isLit Word.max then some right
      else none
  | _ => none

def isGreatestOver (divisor : Expr) : Expr → Bool
  | .binary (.arithmetic .div) dividend other => dividend.isLit Word.max && other == divisor
  | _ => false

-- The operands whose sum or product is checked, where the check is a word. A sum overflows if the
-- complement of one operand is below the other. A product overflows if the first operand is not
-- zero and the greatest word divided by it is below the second.
def operandsOfExpr? : Idiom → Expr → Option (Expr × Expr)
  | additionOverflow, .binary (.compare .lt) complement second =>
      (complemented? complement).map fun first => (first, second)
  | multiplicationOverflow,
      .binary .and (.isZero (.isZero first)) (.binary (.compare .lt) quotient second) =>
      if isGreatestOver first quotient then some (first, second) else none
  | _, _ => none

-- The word that is compared with zero, which stands on exactly one side.
def comparedWithZero? (left right : Expr) : Option Expr :=
  match left.isLit 0, right.isLit 0 with
  | false, true => some left
  | true, false => some right
  | _, _ => none

def operandsOfCond? : Idiom → Cond → Option (Expr × Expr)
  | additionOverflow, .compare .lt complement second =>
      (complemented? complement).map fun first => (first, second)
  | multiplicationOverflow,
      .join .and (.neg (.eq (.word left) (.word right))) (.compare .lt quotient second) => do
      let first ← comparedWithZero? left right
      if isGreatestOver first quotient then some (first, second) else none
  | _, _ => none

def conclusion : Idiom → Spec.IntExpr → Spec.IntExpr → Spec.BoolExpr
  | additionOverflow, first, second => .neg (.inRange .uint256 (first.add second))
  | multiplicationOverflow, first, second =>
      .neg (.implies (.intNeq first (.lit 0)) (.inRange .uint256 (first.mul second)))

end Idiom

structure Idioms where
  order : List Idiom
  nodup : order.Nodup

namespace Idioms

def empty : Idioms := ⟨[], List.nodup_nil⟩

-- An idiom that is there already keeps its place.
def add (idioms : Idioms) (idiom : Idiom) : Idioms :=
  if h : idiom ∈ idioms.order then idioms
  else
    ⟨idioms.order ++ [idiom], by
      simp only [List.nodup_append, idioms.nodup, true_and]
      refine ⟨by simp, ?_⟩
      rintro other member _ last rfl
      exact h (List.mem_singleton.mp last ▸ member)⟩

def remove (idioms : Idioms) (idiom : Idiom) : Idioms :=
  ⟨idioms.order.filter (· != idiom), idioms.nodup.sublist (List.filter_sublist)⟩

def contains (idioms : Idioms) (idiom : Idiom) : Bool := idioms.order.contains idiom

def length (idioms : Idioms) : Nat := idioms.order.length

def isEmpty (idioms : Idioms) : Bool := idioms.order.isEmpty

def all : Idioms := (empty.add .additionOverflow).add .multiplicationOverflow

end Idioms

def Idiom.ofKey? : String → Option Idiom
  | "addition" => some additionOverflow
  | "multiplication" => some multiplicationOverflow
  | _ => none

def Idiom.ofJson? (json : Json) : Option Idiom := do ofKey? (← json.string?)

-- Adds the idioms of a list in its order. All are looked for if there is no list.
def Idioms.ofJson? (json : Json) : Option Idioms :=
  json.orDefault .all fun json => do
    return (← json.list? Idiom.ofJson?).foldl add empty

end SpecRecovery
