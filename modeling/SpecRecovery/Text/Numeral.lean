import SpecRecovery.Word

namespace SpecRecovery.Text

def decimalValue? (digit : Char) : Option Nat :=
  if '0' ≤ digit ∧ digit ≤ '9' then some (digit.toNat - 48) else none

-- A number without leading zeros, except that zero has one digit.
def decimalDigits (value : Nat) : List Char :=
  if value < 10 then [Char.ofNat (48 + value)]
  else decimalDigits (value / 10) ++ [Char.ofNat (48 + value % 10)]
termination_by value

-- The last `twoTo level` digits of a number in front of `rest`. The halves keep long numbers from
-- being divided once for every digit.
def lastDigits : (level value : Nat) → (rest : List Char) → List Char
  | 0, value, rest => Char.ofNat (48 + value % 10) :: rest
  | level + 1, value, rest =>
      let half := Nat.pow 10 (twoTo level)
      lastDigits level (value / half) (lastDigits level (value % half) rest)

-- Enough halvings for all digits of a number, each of which takes more than three bits.
def digitLevel (value : Nat) : Nat := (value.log2 / 3 + 1).log2 + 1

def integerText (value : Int) : String :=
  let digits := (lastDigits (digitLevel value.natAbs) value.natAbs []).dropWhile (· == '0')
  let sign := if value < 0 then "-" else ""
  sign ++ (if digits.isEmpty then "0" else String.ofList digits)

def numberOfDecimal? (digits : List Char) : Option Nat :=
  if digits.isEmpty then none
  else digits.foldlM (fun total digit => (decimalValue? digit).map (10 * total + ·)) 0

-- A count below `limit`. One plus sign may stand before the digits.
def countOfDecimal? (limit : Nat) (text : List Char) : Option Nat := do
  let digits := match text with
    | '+' :: rest => rest
    | _ => text
  let count ← numberOfDecimal? digits
  if count < limit then some count else none

def hexDigit (value : Nat) : Char := Char.ofNat (if value < 10 then 48 + value else 87 + value)

def hexValue? (digit : Char) : Option Nat :=
  if '0' ≤ digit ∧ digit ≤ '9' then some (digit.toNat - 48)
  else if 'a' ≤ digit ∧ digit ≤ 'f' then some (digit.toNat - 87)
  else if 'A' ≤ digit ∧ digit ≤ 'F' then some (digit.toNat - 55)
  else none

def hexDigits : (count value : Nat) → List Char
  | 0, _ => []
  | count + 1, value => hexDigits count (value / 16) ++ [hexDigit (value % 16)]

-- A number without leading zeros, except that zero has one digit.
def hexNumber (value : Nat) : List Char :=
  if value < 16 then [hexDigit value]
  else hexNumber (value / 16) ++ [hexDigit (value % 16)]
termination_by value

def hexOfBytes (bytes : List UInt8) : List Char := bytes.flatMap fun byte => hexDigits 2 byte.toNat

-- The bytes written by pairs of digits. A digit left over is refused.
def bytesOfHex? : List Char → Option (List UInt8)
  | [] => some []
  | [_] => none
  | high :: low :: rest => do
      let high ← hexValue? high
      let low ← hexValue? low
      let bytes ← bytesOfHex? rest
      return UInt8.ofNat (16 * high + low) :: bytes

def numberOfHex? (digits : List Char) : Option Nat :=
  if digits.isEmpty then none
  else digits.foldlM (fun total digit => (hexValue? digit).map (16 * total + ·)) 0

end SpecRecovery.Text
