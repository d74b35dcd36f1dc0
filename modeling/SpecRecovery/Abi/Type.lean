import SpecRecovery.Word

namespace SpecRecovery

-- Sizes of integers are in bits and lengths in bytes.
inductive AbiType
  | uint (size : Nat)
  | int (size : Nat)
  | address
  | bool
  | bytes (length : Nat)
  | dynBytes
  | string
  | array (size : Word) (element : AbiType)
  | dynArray (element : AbiType)
  | tuple (elements : List AbiType)
  | function
deriving Inhabited

namespace AbiType

mutual

def beq : AbiType → AbiType → Bool
  | uint first, uint second => first == second
  | int first, int second => first == second
  | address, address => true
  | bool, bool => true
  | bytes first, bytes second => first == second
  | dynBytes, dynBytes => true
  | string, string => true
  | array size first, array otherSize second => size == otherSize && beq first second
  | dynArray first, dynArray second => beq first second
  | tuple first, tuple second => beqList first second
  | function, function => true
  | _, _ => false

def beqList : List AbiType → List AbiType → Bool
  | [], [] => true
  | first :: firsts, second :: seconds => beq first second && beqList firsts seconds
  | _, _ => false

end

mutual

theorem beq_iff : (first second : AbiType) → (beq first second = true ↔ first = second)
  | first, second => by
      cases first <;> cases second <;>
        simp [beq, beq_iff, beqList_iff]

theorem beqList_iff : (first second : List AbiType) → (beqList first second = true ↔ first = second)
  | [], [] => by simp [beqList]
  | [], _ :: _ => by simp [beqList]
  | _ :: _, [] => by simp [beqList]
  | first :: firsts, second :: seconds => by
      simp [beqList, beq_iff first second, beqList_iff firsts seconds]

end

instance : DecidableEq AbiType := fun first second => decidable_of_iff _ (beq_iff first second)

mutual

def isDynamic : AbiType → Bool
  | dynBytes | string | dynArray _ => true
  | array _ element => isDynamic element
  | tuple elements => anyDynamic elements
  | _ => false

def anyDynamic : List AbiType → Bool
  | [] => false
  | element :: rest => isDynamic element || anyDynamic rest

end

def isTuple : AbiType → Bool
  | tuple _ => true
  | _ => false

def isFunction : AbiType → Bool
  | function => true
  | _ => false

def isSigned : AbiType → Bool
  | int _ => true
  | _ => false

def isElementary : AbiType → Bool
  | uint _ | int _ | address | bool | bytes _ => true
  | _ => false

def addressBits : Nat := 160

-- The least integer of a type that holds integers, and the one after its greatest.
def integerRange : AbiType → Option (Int × Int)
  | uint size => some (0, twoTo size)
  | int size => some (-twoTo (size - 1), twoTo (size - 1))
  | address => some (0, twoTo addressBits)
  | bool => some (0, 2)
  | _ => none

def integerWidth : AbiType → Option Nat
  | uint size | int size => some size
  | address => some addressBits
  | bool => some 1
  | _ => none

def uint256 : AbiType := uint Word.sizeBits

end AbiType

end SpecRecovery
