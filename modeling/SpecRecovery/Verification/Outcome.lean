import SpecRecovery.Machine.Assignment

namespace SpecRecovery

-- What a successful execution can be seen to do: the bytes that it returns, and the words that it
-- leaves in the slots of interest.
structure Outcome where
  returned : List UInt8
  storage : Table Word Word
deriving DecidableEq

-- An assignment at which the specification and the bytecode disagree. A side without an outcome
-- fails.
structure Counterexample where
  assignment : Assignment
  expected : Option Outcome
  actual : Option Outcome
  sample : Nat
deriving DecidableEq

def Outcome.text (outcome : Outcome) : String :=
  let storage := Text.commaList (outcome.storage.entries.map Assignment.slotText)
  "succeeds returning 0x" ++ String.ofList (Text.hexOfBytes outcome.returned) ++
    " with \x7b" ++ storage ++ "\x7d"

namespace Counterexample

def outcomeText : Option Outcome → String
  | some outcome => outcome.text
  | none => "fails"

def text (counterexample : Counterexample) : String :=
  "under " ++ counterexample.assignment.text ++
    " the specification " ++ outcomeText counterexample.expected ++
    " but the bytecode " ++ outcomeText counterexample.actual

def agrees (left right : Counterexample) : Bool :=
  left.assignment == right.assignment && left.expected == right.expected &&
    left.actual == right.actual

end Counterexample

end SpecRecovery
