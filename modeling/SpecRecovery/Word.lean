namespace SpecRecovery

def twoTo (bits : Nat) : Nat := Nat.pow 2 bits

-- A machine word of 256 bits, whose arithmetic wraps.
abbrev Word := BitVec 256

instance : Std.TransOrd Word := inferInstance

namespace Word

def sizeBits : Nat := 256

def sizeBytes : Nat := 32

def max : Word := BitVec.allOnes 256

def ofBool (truth : Bool) : Word := if truth then 1 else 0

-- The word whose lowest `bits` bits are set. All are set from 256 on.
def lowMask (bits : Nat) : Word :=
  if sizeBits ≤ bits then max else BitVec.ofNat 256 (twoTo bits - 1)

def toInteger (word : Word) : Int := word.toNat

-- The lowest `bits` bits read as two's complement, for a width brought into 1 to 256.
def toSigned (word : Word) (bits : Nat) : Int :=
  let width := if bits = 0 then 1 else if sizeBits < bits then sizeBits else bits
  let low := toInteger (word &&& lowMask width)
  if twoTo (width - 1) ≤ low then low - twoTo width else low

def toOffset? (word : Word) : Option Nat :=
  if word.toNat < twoTo 32 then some word.toNat else none

def lowBytes (count value : Nat) : List UInt8 :=
  (List.range count).map fun index => UInt8.ofNat (value >>> (8 * (count - 1 - index)))

def byteCount (value : Nat) : Nat := value.log2 / 8 + 1

def toBytes (word : Word) : List UInt8 := lowBytes sizeBytes word.toNat

-- The word with the given bytes, the highest first. Only the last 32 count.
def ofBytes (bytes : List UInt8) : Word :=
  BitVec.ofNat 256 (bytes.foldl (fun total byte => total * 256 + byte.toNat) 0)

-- The word whose last bytes are those of `integer`, after zeros. There is none if the integer is
-- negative or takes more bytes than a word has.
def ofInteger? (integer : Int) : Option Word :=
  let magnitude := integer.natAbs
  let count := byteCount magnitude
  if integer < 0 ∨ sizeBytes < count then none
  else if integer = 0 then some 0
  else some (ofBytes (List.replicate (sizeBytes - count) 0 ++ lowBytes count magnitude))

def text (word : Word) : String := toString word.toNat

-- Multiplies `result` by `base` to the power `exponent`, squaring the base once for each bit.
def powerOnto (result base : Word) (exponent : Nat) : Word :=
  if exponent = 0 then result
  else
    let next := if exponent % 2 = 1 then result * base else result
    powerOnto next (base * base) (exponent / 2)
termination_by exponent

def power (base exponent : Word) : Word := powerOnto 1 base exponent.toNat

-- Copies the sign bit of the lowest `bytes + 1` bytes of `value` through the rest of the word.
-- From 31 on there is no bit left to copy into.
def extendSign (bytes value : Word) : Word :=
  if 31 ≤ bytes.toNat then value
  else
    let bit := 8 * bytes.toNat + 7
    let mask := lowMask (bit + 1)
    if value.getLsbD bit then value ||| ~~~mask else value &&& mask

end Word

end SpecRecovery
