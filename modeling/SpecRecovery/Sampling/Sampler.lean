import SpecRecovery.Machine.Assignment
import SpecRecovery.Random.Draw
import SpecRecovery.Sampling.Atom

namespace SpecRecovery.Sampling

-- What assignments are drawn for, each list in ascending order: the calldata, the environment and
-- the slots that get values, the words that are tried more often than others, and the words that
-- may be selectors.
structure Sampler where
  calldata : List String
  environment : List Environment
  slots : List Word
  interesting : List Word
  selectors : List Word
  readsSelector : Bool

def corners : List Word :=
  let half := BitVec.twoPow 256 255
  let addressLimit := BitVec.twoPow 256 AbiType.addressBits
  [0, 1, 2, 255, 256, Word.max, Word.max - 1, half, half - 1, addressLimit,
    addressLimit - 1]

def neighbourhood (word : Word) : List Word := [word, word + 1, word - 1]

namespace Sampler

def ofAtoms (atoms : List Atom) : Sampler :=
  let literals := Table.ascendingKeys <| atoms.filterMap fun atom =>
    match atom with
    | .literal value => some value
    | _ => none
  { calldata := Table.ascendingKeys <| atoms.filterMap fun atom =>
      match atom with
      | .calldata name => some name
      | _ => none
    environment := Table.ascendingKeys <| atoms.filterMap fun atom =>
      match atom with
      | .environment value => some value
      | _ => none
    slots := slotsOf atoms
    interesting := Table.ascendingKeys (corners ++ literals.flatMap neighbourhood)
    selectors := literals.filter fun literal => literal.toNat < twoTo 32
    readsSelector := atoms.contains .selector }

open SpecRecovery.Random

variable {σ : Type} [Supply σ]

-- Half of the draws are interesting words, the others are of every width alike.
def drawValue (sampler : Sampler) : StateM σ Word := do
  if ← drawChance 2 then
    let index ← drawIndex sampler.interesting.length
    return sampler.interesting.getD index 0
  else
    let word ← drawWord
    let width ← drawWidth
    return word &&& Word.lowMask width

-- The first two samples are the extremes and take nothing from the supply.
def valueAt (sampler : Sampler) (sample : Nat) : StateM σ Word :=
  match sample with
  | 0 => pure 0
  | 1 => pure Word.max
  | _ => sampler.drawValue

-- Three quarters of the addresses are cut to their width.
def environmentValueAt (sampler : Sampler) (sample : Nat) (value : Environment) :
    StateM σ Word := do
  let word ← sampler.valueAt sample
  if value.type = .address then
    if ← drawChance 3 then return word &&& Word.lowMask AbiType.addressBits
  return word

def selectorAt (sampler : Sampler) (sample : Nat) : StateM σ Word := do
  if sampler.readsSelector then
    match sampler.selectors[sample % sampler.selectors.length]? with
    | some selector => return selector
    | none => return BitVec.ofNat 256 (← draw32)
  else return 0

-- The assignment with the given number. What the sampler does not list is zero.
def assignment (sampler : Sampler) (sample : Nat) : StateM σ Assignment := do
  let calldata ← sampler.calldata.mapM fun name => do
    return (name, ← sampler.valueAt sample)
  let environment ← sampler.environment.mapM fun value => do
    return (value, ← sampler.environmentValueAt sample value)
  let storage ← sampler.slots.mapM fun slot => do
    return (slot, ← sampler.valueAt sample)
  let selector ← sampler.selectorAt sample
  return ⟨Table.ofList calldata, Table.ofList environment, selector, Table.ofList storage⟩

end Sampler

end SpecRecovery.Sampling
