import SpecRecovery.Contract
import SpecRecovery.Failure.Basic

namespace SpecRecovery

structure LocatedFailure where
  location : EntryPoint
  payload : Failure
deriving DecidableEq

def LocatedFailure.text (failure : LocatedFailure) : String :=
  "[" ++ failure.location.text ++ "]: " ++ failure.payload.message

-- Failures at several entry points. Adding keeps them ordered by entry point, if they are.
structure FailureReport where
  failures : List LocatedFailure
deriving DecidableEq

namespace FailureReport

def empty : FailureReport := ⟨[]⟩

def single (failure : LocatedFailure) : FailureReport := ⟨[failure]⟩

def length (report : FailureReport) : Nat := report.failures.length

def isEmpty (report : FailureReport) : Bool := report.failures.isEmpty

-- Where the items that pass a test end, if all that pass stand before all others. Halves the span
-- from `base` on until one item is left.
def boundary {α : Type} (test : α → Bool) (items : Array α) (base size : Nat) : Nat :=
  if size ≤ 1 then
    match items[base]? with
    | some item => if size = 1 ∧ test item then base + 1 else base
    | none => base
  else
    let half := size / 2
    let passes := (items[base + half]?).any test
    boundary test items (if passes then base + half else base) (size - half)
termination_by size

def insertionIndex (report : FailureReport) (location : EntryPoint) : Nat :=
  boundary (fun failure => (compare failure.location location).isLE) report.failures.toArray 0
    report.length

-- Puts a failure behind those that are already known at its entry point.
def add (report : FailureReport) (failure : LocatedFailure) : FailureReport :=
  ⟨report.failures.insertIdx (report.insertionIndex failure.location) failure⟩

def addAll (report : FailureReport) (failures : List LocatedFailure) : FailureReport :=
  failures.foldl add report

def payloadsAt (report : FailureReport) (location : EntryPoint) : List Failure :=
  (report.failures.filter fun failure => failure.location == location).map LocatedFailure.payload

-- The entry points with failures, without immediate repetitions.
def entries (report : FailureReport) : List EntryPoint :=
  (report.failures.map LocatedFailure.location).eraseReps

def text (report : FailureReport) : String :=
  if report.isEmpty then "Encountered no errors"
  else
    "Encountered " ++ toString report.length ++ " errors:\n" ++
      String.join (report.failures.map fun failure => failure.text ++ "\n")

end FailureReport

end SpecRecovery
