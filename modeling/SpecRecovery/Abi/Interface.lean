import SpecRecovery.Abi.Spelling
import SpecRecovery.Keccak
import SpecRecovery.Text.Numeral
import SpecRecovery.Word

namespace SpecRecovery

-- The first four bytes of call data, by which a contract finds the method that is called.
structure Selector where
  code : BitVec 32
deriving DecidableEq, Inhabited

namespace Selector

def ofSignature (signature : String) : Selector :=
  let digest := Word.ofBytes (Keccak.hash signature.toUTF8.toList)
  ⟨digest.extractLsb' 224 32⟩

def toWord (selector : Selector) : Word := selector.code.setWidth 256

def ofWord (word : Word) : Selector := ⟨word.setWidth 32⟩

def text (selector : Selector) : String :=
  String.ofList ('0' :: 'x' :: Text.hexDigits 8 selector.code.toNat)

def dropMarkers : List Char → List Char
  | '0' :: 'x' :: rest => dropMarkers rest
  | text => text

-- Reads four bytes in digits of either case, after any number of markers.
def parse? (text : String) : Option Selector := do
  let bytes ← Text.bytesOfHex? (dropMarkers text.toList)
  if bytes.length = 4 then some ⟨(Word.ofBytes bytes).setWidth 32⟩ else none

end Selector

structure Argument where
  name : String
  type : AbiType
deriving DecidableEq

structure Interface where
  name : String
  arguments : List Argument
deriving DecidableEq

namespace Interface

def signature (interface : Interface) : String :=
  interface.name ++ "(" ++
    String.ofList (AbiType.spellings (interface.arguments.map Argument.type)) ++ ")"

def selector (interface : Interface) : Selector := .ofSignature interface.signature

def argument? (interface : Interface) (name : String) : Option Argument :=
  interface.arguments.find? fun argument => argument.name == name

end Interface

structure Method where
  interface : Interface
  outputs : List AbiType
deriving DecidableEq

namespace Method

def signature (method : Method) : String := method.interface.signature

def selector (method : Method) : Selector := method.interface.selector

end Method

end SpecRecovery
