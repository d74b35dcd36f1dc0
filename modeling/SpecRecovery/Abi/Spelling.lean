import SpecRecovery.Abi.Type
import SpecRecovery.Text.Numeral
import SpecRecovery.Text.Quoted

namespace SpecRecovery

namespace Text

def isBlank (char : Char) : Bool :=
  let code := char.toNat
  (0x9 ≤ code && code ≤ 0xD) || code == 0x20 || code == 0x85 || code == 0xA0 || code == 0x1680 ||
    (0x2000 ≤ code && code ≤ 0x200A) || code == 0x2028 || code == 0x2029 || code == 0x202F ||
    code == 0x205F || code == 0x3000

end Text

namespace AbiType

mutual

-- The canonical spelling, as it stands in signatures.
def spelling : AbiType → List Char
  | uint size => "uint".toList ++ Text.decimalDigits size
  | int size => "int".toList ++ Text.decimalDigits size
  | address => "address".toList
  | bool => "bool".toList
  | bytes length => "bytes".toList ++ Text.decimalDigits length
  | dynBytes => "bytes".toList
  | string => "string".toList
  | array size element => spelling element ++ '[' :: Text.decimalDigits size.toNat ++ [']']
  | dynArray element => spelling element ++ ['[', ']']
  | tuple elements => '(' :: spellings elements ++ [')']
  | function => "function".toList

def spellings : List AbiType → List Char
  | [] => []
  | [element] => spelling element
  | element :: rest => spelling element ++ ',' :: spellings rest

end

def text (type : AbiType) : String := String.ofList (spelling type)

-- The piece of a text that spells no type, without the blanks around it.
structure Invalid where
  piece : String
deriving DecidableEq

def Invalid.ofBackwards (piece : List Char) : Invalid := ⟨String.ofList piece.reverse⟩

def Invalid.message (error : Invalid) : String := "Invalid ABI type " ++ Text.quoted error.piece

def widthOf? (digits : List Char) : Option Nat := do
  let width ← Text.countOfDecimal? (twoTo 64) digits
  if 0 < width ∧ width ≤ Word.sizeBits ∧ width % 8 = 0 then some width else none

def lengthOf? (digits : List Char) : Option Nat := do
  let length ← Text.countOfDecimal? (twoTo 64) digits
  if 0 < length ∧ length ≤ Word.sizeBytes then some length else none

def ofName? (name : List Char) : Option AbiType :=
  if name = "address".toList then some address
  else if name = "bool".toList then some bool
  else if name = "bytes".toList then some dynBytes
  else if name = "string".toList then some string
  else if name = "function".toList then some function
  else if name = "uint".toList then some uint256
  else if name = "int".toList then some (int Word.sizeBits)
  else if let some digits := "uint".toList.isPrefixOf? name then (widthOf? digits).map uint
  else if let some digits := "int".toList.isPrefixOf? name then (widthOf? digits).map int
  else if let some digits := "bytes".toList.isPrefixOf? name then (lengthOf? digits).map bytes
  else none

-- Spellings are read backwards, because the last dimension of an array is the outermost. A piece of
-- a text that is read is reversed, and no blanks stand at its end, which comes first in the text.

-- What is left of a piece after its last opening bracket is cut off, with the dimension behind it.
def cutDimension? (backwards : List Char) : Option (List Char × List Char) :=
  match backwards.dropWhile (· != '[') with
  | [] => none
  | _ :: before => some (before, (backwards.takeWhile (· != '[')).reverse)

theorem length_cutDimension? {backwards before dimension : List Char}
    (h : cutDimension? backwards = some (before, dimension)) :
    before.length < backwards.length := by
  have shorter : (backwards.dropWhile (· != '[')).length ≤ backwards.length :=
    (List.dropWhile_sublist _).length_le
  unfold cutDimension? at h
  split at h
  · simp at h
  · next found =>
      simp only [Option.some.injEq, Prod.mk.injEq] at h
      rw [found, List.length_cons, h.1] at shorter
      omega

def extend (char : Char) (backwards : List Char) : List Char :=
  if backwards.isEmpty && Text.isBlank char then [] else char :: backwards

theorem length_extend_le (char : Char) (backwards : List Char) :
    (extend char backwards).length ≤ backwards.length + 1 := by
  unfold extend
  split <;> simp

-- Cuts at the commas outside all parentheses, where a closing parenthesis too many is passed over.
-- The first piece goes on from what was read of it.
def pieces (depth : Nat) (backwards : List Char) : List Char → List (List Char)
  | [] => [backwards]
  | char :: rest =>
      if char = ',' ∧ depth = 0 then backwards :: pieces 0 [] rest
      else
        let depth :=
          if char = '(' then depth + 1 else if char = ')' then depth - 1 else depth
        pieces depth (extend char backwards) rest

theorem length_of_mem_pieces {depth : Nat} {backwards text piece : List Char}
    (h : piece ∈ pieces depth backwards text) :
    piece.length ≤ backwards.length + text.length := by
  induction text generalizing depth backwards with
  | nil => simp_all [pieces]
  | cons char rest ih =>
      simp only [pieces] at h
      split at h
      · cases List.mem_cons.mp h with
        | inl same => simp [same]
        | inr later =>
            have := ih later
            simp only [List.length_nil, List.length_cons] at *
            omega
      · have := ih h
        have := length_extend_le char backwards
        simp only [List.length_cons]
        omega

def elementPieces (body : List Char) : List (List Char) :=
  if body.all Text.isBlank then [] else pieces 0 [] body

theorem length_of_mem_elementPieces {body piece : List Char}
    (h : piece ∈ elementPieces body) : piece.length ≤ body.length := by
  unfold elementPieces at h
  split at h
  · simp at h
  · simpa using length_of_mem_pieces h

def inParentheses? (backwards : List Char) : Option (List Char) :=
  match backwards.reverse with
  | '(' :: body => some body
  | _ => none

theorem length_inParentheses? {backwards body : List Char}
    (h : inParentheses? backwards = some body) : body.length < backwards.length := by
  unfold inParentheses? at h
  split at h
  · next found =>
      have same := congrArg List.length found
      simp only [List.length_reverse, List.length_cons, Option.some.injEq] at same h
      rw [← h]
      omega
  · simp at h

-- Reads a piece with blanks around any of the types in it. A final dimension is read first, then
-- parentheses, then a name. The first piece that spells nothing is the error.
def ofBackwards? : (text : List Char) → Except Invalid AbiType
  | [] => .error ⟨""⟩
  | char :: rest =>
      if Text.isBlank char then ofBackwards? rest
      else if char = ']' then
        match _cut : cutDimension? rest with
        | none => .error (.ofBackwards (char :: rest))
        | some (before, dimension) => do
            let element ← ofBackwards? before
            if dimension.isEmpty then return dynArray element
            else
              match Text.countOfDecimal? (twoTo 64) dimension with
              | some size => return array (BitVec.ofNat 256 size) element
              | none => .error (.ofBackwards (char :: rest))
      else if char = ')' then
        match _body : inParentheses? rest with
        | none => .error (.ofBackwards (char :: rest))
        | some body => do
            let elements ← (elementPieces body).attach.mapM fun piece => ofBackwards? piece.val
            return tuple elements
      else
        match ofName? (char :: rest).reverse with
        | some type => return type
        | none => .error (.ofBackwards (char :: rest))
termination_by text => text.length
decreasing_by
  · simp
  · have := length_cutDimension? _cut
    simp only [List.length_cons]
    omega
  · have := length_inParentheses? _body
    have := length_of_mem_elementPieces piece.property
    simp only [List.length_cons]
    omega

def ofSpelling? (text : List Char) : Except Invalid AbiType :=
  ofBackwards? (text.dropWhile Text.isBlank).reverse

def parse (text : String) : Except Invalid AbiType := ofSpelling? text.toList

end AbiType

end SpecRecovery
