import SpecRecovery.Abi.Type

namespace SpecRecovery.AbiType

mutual

-- Widths of integers are whole bytes up to a word, and fixed byte strings fill at most a word.
def isWellSized : AbiType → Bool
  | uint size | int size => size % 8 == 0 && 8 ≤ size && size ≤ Word.sizeBits
  | bytes length => 1 ≤ length && length ≤ Word.sizeBytes
  | array _ element | dynArray element => isWellSized element
  | tuple elements => areWellSized elements
  | _ => true

def areWellSized : List AbiType → Bool
  | [] => true
  | element :: rest => isWellSized element && areWellSized rest

end

-- Whether a type holds integers, and the given one is among them.
def holds (type : AbiType) (value : Int) : Bool :=
  type.integerRange.any fun range => range.1 ≤ value && value < range.2

theorem holds_of_range {type : AbiType} {low high : Int}
    (h : type.integerRange = some (low, high)) (value : Int) :
    type.holds value = true ↔ low ≤ value ∧ value < high := by
  simp [AbiType.holds, h]

theorem integerRange_isSome_iff (type : AbiType) :
    type.integerRange.isSome ↔ type.integerWidth.isSome := by
  cases type <;> simp [integerRange, integerWidth]

end SpecRecovery.AbiType
