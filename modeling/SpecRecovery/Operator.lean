import SpecRecovery.Word

namespace SpecRecovery

-- The arithmetic that machine terms and specifications share. Words wrap and integers do not.
inductive Arithmetic
  | add
  | sub
  | mul
  | div
  | mod
  | exp
deriving DecidableEq

inductive Comparison
  | lt
  | gt
  | leq
  | geq
deriving DecidableEq

inductive Connective
  | and
  | or
  | impl
deriving DecidableEq

namespace Arithmetic

-- Arithmetic modulo 2^256, where a division by zero gives zero.
def onWords : Arithmetic → Word → Word → Word
  | add, left, right => left + right
  | sub, left, right => left - right
  | mul, left, right => left * right
  | div, dividend, divisor => dividend / divisor
  | mod, dividend, divisor => if divisor = 0 then 0 else dividend % divisor
  | exp, base, exponent => base.power exponent

-- Whether the low bits of a result depend on reading the operands as unsigned.
def readsUnsigned : Arithmetic → Bool
  | add | sub | mul => false
  | div | mod | exp => true

def symbol : Arithmetic → String
  | add => "+"
  | sub => "-"
  | mul => "*"
  | div => "/"
  | mod => "%"
  | exp => "^"

def name : Arithmetic → String
  | add => "Add"
  | sub => "Sub"
  | mul => "Mul"
  | div => "Div"
  | mod => "Mod"
  | exp => "Exp"

def sides : Arithmetic → String × String
  | add | sub | mul => ("left", "right")
  | div | mod => ("dividend", "divisor")
  | exp => ("base", "exponent")

end Arithmetic

namespace Comparison

def onIntegers : Comparison → Int → Int → Bool
  | lt, left, right => left < right
  | gt, left, right => right < left
  | leq, left, right => left ≤ right
  | geq, left, right => right ≤ left

def onWords (comparison : Comparison) (left right : Word) : Bool :=
  comparison.onIntegers left.toNat right.toNat

def symbol : Comparison → String
  | lt => "<"
  | gt => ">"
  | leq => "<="
  | geq => ">="

def name : Comparison → String
  | lt => "Lt"
  | gt => "Gt"
  | leq => "LEq"
  | geq => "GEq"

end Comparison

namespace Connective

-- The truth of the whole when the left side decides it alone. Then the right side is not evaluated.
def decided? : Connective → Bool → Option Bool
  | and, false => some false
  | or, true => some true
  | impl, false => some true
  | _, _ => none

def symbol : Connective → String
  | and => "and"
  | or => "or"
  | impl => "=>"

def name : Connective → String
  | and => "And"
  | or => "Or"
  | impl => "Impl"

def sides : Connective → String × String
  | and | or => ("left", "right")
  | impl => ("antecedent", "consequent")

end Connective

end SpecRecovery
