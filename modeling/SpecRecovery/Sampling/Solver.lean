import SpecRecovery.Json.Values
import SpecRecovery.Machine.Evaluation
import SpecRecovery.Sampling.Sampler
import SpecRecovery.Verification.Basic

namespace SpecRecovery.Sampling

open Machine SpecRecovery.Random

structure Effort where
  samples : Nat
  seed : UInt64
  selectorSamples : Nat
  assignmentsPerSelector : Nat
deriving DecidableEq

def Effort.standard : Effort := ⟨256, 0xdec0de5eed, 64, 8⟩

-- The standard holds for every part that is left out. A seed may need all 64 bits, so it is a
-- string.
def Effort.ofJson? (json : Json) : Option Effort := do
  match ← json.values? [.nullable "samples", .nullable "seed", .nullable "selector_samples",
      .nullable "assignments_per_selector"] with
  | [samples, seed, selectorSamples, assignmentsPerSelector] =>
      let seed ← seed.orDefault standard.seed.toNat Json.natural?
      return {
        samples := ← samples.orDefault standard.samples Json.count?
        seed := UInt64.ofNat seed
        selectorSamples := ← selectorSamples.orDefault standard.selectorSamples Json.count?
        assignmentsPerSelector :=
          ← assignmentsPerSelector.orDefault standard.assignmentsPerSelector Json.count? }
  | _ => none

def readSlots (assignment : Assignment) (store : Store) (slots : List Word) :
    Except Unevaluable (Table Word Word) := do
  return Table.ofList (← slots.mapM fun slot => do return (slot, ← store.read assignment slot))

-- What a path leaves behind, in the given slots and in those that the assignment fills. A path
-- without storage has written nothing.
def outcomeOf (assignment : Assignment) (slots : List Word) (branch : Branch) :
    Except Unevaluable Outcome := do
  let returned ← branch.returned.bytes assignment
  let others := assignment.storage.keys.filter fun slot => !slots.contains slot
  let store := branch.entrypointStore?.getD .abstract
  return ⟨returned, ← readSlots assignment store (slots ++ others)⟩

-- What the first path that is taken leaves behind. If none is taken, the execution fails.
def outcome? (assignment : Assignment) (slots : List Word) :
    List Branch → Except Unevaluable (Option Outcome)
  | [] => return none
  | branch :: rest => do
      if ← allHold assignment branch.conditions then some <$> outcomeOf assignment slots branch
      else outcome? assignment slots rest

-- Whether a path that does not revert is taken. A path that was given up counts, because it might
-- end well.
def reaches (assignment : Assignment) : List State → Except Unevaluable Bool
  | [] => return false
  | .revert _ _ :: rest => reaches assignment rest
  | state :: rest => do
      if ← allHold assignment state.conditions then return true
      else reaches assignment rest

variable {σ : Type} [Supply σ]

def firstDifference? (sampler : Sampler) (specified explored : List Branch) :
    (remaining sample : Nat) → ExceptT Unevaluable (StateM σ) (Option Counterexample)
  | 0, _ => return none
  | remaining + 1, sample => do
      let assignment ← (sampler.assignment sample : StateM σ Assignment)
      let expected ← outcome? assignment sampler.slots specified
      let actual ← outcome? assignment sampler.slots explored
      if expected = actual then firstDifference? sampler specified explored remaining (sample + 1)
      else return some ⟨assignment, expected, actual, sample⟩

def equivalenceFrom (samples : Nat) (specified explored : List Branch) :
    ExceptT Unevaluable (StateM σ) (Option Counterexample) :=
  firstDifference? (.ofAtoms ((specified ++ explored).flatMap ofBranch)) specified explored
    samples 0

def reachesWith (sampler : Sampler) (runtime : List State) (selector : Word) :
    (remaining sample : Nat) → ExceptT Unevaluable (StateM σ) Bool
  | 0, _ => return false
  | remaining + 1, sample => do
      let assignment ← (sampler.assignment sample : StateM σ Assignment)
      if ← reaches { assignment with selector := selector } runtime then return true
      else reachesWith sampler runtime selector remaining (sample + 1)

def drawSelectors : (count : Nat) → StateM σ (List Word)
  | 0 => return []
  | count + 1 => do
      let selector ← draw32
      return BitVec.ofNat 256 selector :: (← drawSelectors count)

-- Tries the literals that may be selectors and some random ones, in ascending order and without
-- those that are declared.
def exhaustivenessFrom (selectorSamples assignmentsPerSelector : Nat)
    (declared : List Selector) (runtime : List State) :
    ExceptT Unevaluable (StateM σ) Coverage := do
  let sampler := Sampler.ofAtoms (runtime.flatMap ofState)
  let random ← (drawSelectors selectorSamples : StateM σ (List Word))
  let known := declared.map Selector.toWord
  let candidates := (Table.ascendingKeys (sampler.selectors ++ random)).filter fun selector =>
    !known.contains selector
  let missing ← candidates.filterM fun selector =>
    reachesWith sampler runtime selector assignmentsPerSelector 0
  if missing.isEmpty then return .covered
  else return .missing (missing.map Selector.ofWord)

def Effort.answer {α : Type} (effort : Effort)
    (computation : ExceptT Unevaluable (StateM Stream) α) : Except VerificationError α :=
  (computation.run (Stream.ofSeed effort.seed)).1.mapError .unevaluable

-- Decides queries by sampling. What it finds is genuine, but it may find nothing although there is
-- something.
def Effort.solver (effort : Effort) : Solver where
  equivalence specified explored :=
    effort.answer (equivalenceFrom effort.samples specified explored)
  exhaustiveness declared runtime :=
    effort.answer
      (exhaustivenessFrom effort.selectorSamples effort.assignmentsPerSelector declared runtime)

end SpecRecovery.Sampling
