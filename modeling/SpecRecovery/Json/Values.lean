import SpecRecovery.Json.Basic
import SpecRecovery.Text.Numeral
import SpecRecovery.Word

namespace SpecRecovery

-- Numbers of more than 64 bits are strings of decimal digits. A natural number may also have
-- hexadecimal digits behind a marker.
def Json.natural? (json : Json) : Option Nat := do
  match (← json.string?).toList with
  | '0' :: 'x' :: digits => Text.numberOfHex? digits
  | digits => Text.numberOfDecimal? digits

def Json.ofInteger (value : Int) : Json := .string (Text.integerText value)

def Json.integer? (json : Json) : Option Int := do
  match (← json.string?).toList with
  | '-' :: digits => return -(Int.ofNat (← Text.numberOfDecimal? digits))
  | digits => return Int.ofNat (← Text.numberOfDecimal? digits)

def Json.ofWord (word : Word) : Json := .string word.text

def Json.word? (json : Json) : Option Word := do
  let value ← json.natural?
  if value < twoTo Word.sizeBits then some (BitVec.ofNat 256 value) else none

def Json.ofBytes (bytes : List UInt8) : Json := .string (String.ofList (Text.hexOfBytes bytes))

def Json.bytes? (json : Json) : Option (List UInt8) := do
  Text.bytesOfHex? (← json.string?).toList

def Json.ofList {α : Type} (encode : α → Json) (values : List α) : Json :=
  .array (values.map encode)

def Json.list? {α : Type} (decode : Json → Option α) (json : Json) : Option (List α) := do
  (← json.array?).mapM decode

def Json.orDefault {α : Type} (default : α) (decode : Json → Option α) : Json → Option α
  | null => some default
  | json => decode json

def Json.option? {α : Type} (decode : Json → Option α) : Json → Option (Option α) :=
  orDefault none fun json => (decode json).map some

def Json.ofOption {α : Type} (encode : α → Json) (value : Option α) : Json :=
  (value.map encode).getD .null

def Json.ofPairs {α β : Type} (first : α → Json) (second : β → Json) (pairs : List (α × β)) :
    Json :=
  ofList (fun pair => .array [first pair.1, second pair.2]) pairs

def Json.pairs? {α β : Type} (first : Json → Option α) (second : Json → Option β) :
    Json → Option (List (α × β)) :=
  list? fun pair =>
    match pair with
    | .array [left, right] => do return (← first left, ← second right)
    | _ => none

def Json.tagged (tag : String) (parts : List Json) : Json := .array (.string tag :: parts)

namespace Json.BigInteger

-- The digits of a number in base 2^32, the lowest first and without leading zeros.
def limbs (value : Nat) : List Nat :=
  if value = 0 then [] else value % twoTo 32 :: limbs (value / twoTo 32)
termination_by value
decreasing_by exact Nat.div_lt_self (by omega) (by decide)

def ofLimbs (digits : List Nat) : Nat :=
  digits.foldr (fun digit total => total * twoTo 32 + digit) 0

-- An unbounded integer is written as its sign and the digits of its magnitude.
def write (value : Int) : Json :=
  .array [.integer value.sign, .array ((limbs value.natAbs).map .count)]

-- The sign 0 makes the whole zero, and digits may have leading zeros.
def read? : Json → Option Int
  | .array [sign, digits] => do
      let digits ← (← digits.array?).mapM (countBelow? (twoTo 32))
      match sign with
      | .integer 1 => return ofLimbs digits
      | .integer 0 => return 0
      | .integer (-1) => return -(ofLimbs digits)
      | _ => none
  | _ => none

end Json.BigInteger

end SpecRecovery
