import SpecRecovery.Random.Stream
import SpecRecovery.Word

namespace SpecRecovery.Random

variable {σ : Type} [Supply σ]

def draw32 : StateM σ Nat := do
  let word ← fun state => Supply.next state
  return word.toNat

-- The low half comes first.
def draw64 : StateM σ Nat := do
  let low ← draw32
  let high ← draw32
  return high * twoTo 32 + low

-- The low half comes first.
def draw128 : StateM σ Nat := do
  let low ← draw64
  let high ← draw64
  return high * twoTo 64 + low

-- The high half comes first.
def drawWord : StateM σ Word := do
  let high ← draw128
  let low ← draw128
  return BitVec.ofNat 256 (high * twoTo 128 + low)

def drawChance (quarters : Nat) : StateM σ Bool := do
  let value ← draw64
  return value < quarters * twoTo 62

-- The greatest remainder that is kept when `count` values share the numbers of `bits` bits.
-- It has the leading bit of the count at the top, so more than half of the numbers are kept.
def keptZone (bits count : Nat) : Nat := count * twoTo (bits - 1 - count.log2) - 1

-- A draw is refused with a chance of about a half at most, so this many refusals do not occur.
def maximumRefusals : Nat := 256

-- An index below `count`, taken as the high part of a product. The remainders beyond the zone are
-- refused, which leaves every index the same share of the numbers below `limit`.
def drawIndexFrom (draw : StateM σ Nat) (limit zone count : Nat) : (refusals : Nat) → StateM σ Nat
  | 0 => do return (← draw) * count / limit
  | refusals + 1 => do
      let product := (← draw) * count
      if product % limit ≤ zone then return product / limit
      else drawIndexFrom draw limit zone count refusals

def drawIndex (count : Nat) : StateM σ Nat :=
  drawIndexFrom draw32 (twoTo 32) (keptZone 32 count) count maximumRefusals

def drawWidth : StateM σ Nat := do
  let index ←
    drawIndexFrom draw64 (twoTo 64) (keptZone 64 Word.sizeBits) Word.sizeBits maximumRefusals
  return index + 1

end SpecRecovery.Random
