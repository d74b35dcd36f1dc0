import SpecRecovery.Artifact.Codec
import SpecRecovery.Contract
import SpecRecovery.Json.Values

namespace SpecRecovery

namespace Artifact

open Text

def parseType (text : String) : Except ArtifactError AbiType :=
  (AbiType.parse text).mapError .invalidType

mutual

-- The type of a parameter. The components of a tuple stand in for the word itself, and its
-- dimensions follow them.
def Parameter.abiType : Parameter → Except ArtifactError AbiType
  | ⟨_, type, components⟩ =>
      match "tuple".toList.isPrefixOf? type.toList with
      | some dimensions => do
          let elements ← abiTypes components
          parseType (String.ofList ('(' :: AbiType.spellings elements ++ ')' :: dimensions))
      | none => parseType type

def abiTypes : List Parameter → Except ArtifactError (List AbiType)
  | [] => return []
  | parameter :: rest => do
      let type ← parameter.abiType
      return type :: (← abiTypes rest)

end

def arguments (parameters : List Parameter) : Except ArtifactError (List Argument) :=
  parameters.mapM fun parameter => do return ⟨parameter.name, ← parameter.abiType⟩

-- Code in hexadecimal, before which one marker may stand.
def decodeCode (code : String) : Except ArtifactError (List UInt8) :=
  let digits := ("0x".toList.isPrefixOf? code.toList).getD code.toList
  match bytesOfHex? digits with
  | some bytes => return bytes
  | none => throw .invalidCode

def hasMarker (marker label : String) : Bool := marker.toList.isPrefixOf label.toList

-- The type of a variable that is no mapping. A contract is an address, an enumeration an integer,
-- and the members of a struct are of no interest.
def TypeDescription.abiType (description : TypeDescription) : Except ArtifactError AbiType :=
  match AbiType.parse description.label with
  | .ok type => return type
  | .error _ =>
      if hasMarker "contract " description.label then return .address
      else if hasMarker "enum " description.label then
        match countOfDecimal? (twoTo 64) description.byteCount.toList with
        | some bytes => return .uint (bytes * 8 % twoTo 64)
        | none => throw (.invalidWidth description.label)
      else if hasMarker "struct " description.label then return .tuple []
      else throw (.unsupportedType description.label)

def Storage.description (storage : Storage) (id : String) :
    Except ArtifactError TypeDescription :=
  match storage.types.find? id with
  | some description => return description
  | none => throw (.unknownType id)

inductive StoredType
  | value (type : AbiType)
  | mapping (key : AbiType) (values : String)
deriving DecidableEq

def Storage.storedType (storage : Storage) (id : String) : Except ArtifactError StoredType := do
  let description ← storage.description id
  if description.encoding ≠ "mapping" then return .value (← description.abiType)
  else
    match description.key, description.value with
    | none, _ => throw (.keylessMapping id)
    | some _, none => throw (.valuelessMapping id)
    | some key, some values => return .mapping (← (← storage.description key).abiType) values

-- One step of the search for a type, where it is known what lies below mappings.
def Storage.stepWith (storage : Storage) (below : String → Option (Except ArtifactError SlotType))
    (id : String) : Option (Except ArtifactError SlotType) :=
  match storage.storedType id with
  | .error reason => some (.error reason)
  | .ok (.value type) => some (.ok (.value type))
  | .ok (.mapping key values) => (below values).map (Except.map (SlotType.underKey key))

def Storage.slotTypeWithin (storage : Storage) : (steps : Nat) → (id : String) →
    Option (Except ArtifactError SlotType)
  | 0, _ => none
  | steps + 1, id => storage.stepWith (storage.slotTypeWithin steps) id

-- The type of a variable. The values of a mapping may be mappings themselves, and nothing keeps
-- them from leading back to where they came from. Then there is no answer: a search that goes on
-- for more steps than there are types never ends.
def Storage.slotType (storage : Storage) (id : String) : Option (Except ArtifactError SlotType) :=
  storage.slotTypeWithin (storage.types.entries.length + 1) id

def Storage.storageVariable (storage : Storage) (stored : Variable) :
    ExceptT ArtifactError Option StorageVariable := do
  match countOfDecimal? (twoTo Word.sizeBits) stored.slot.toList with
  | none => throw (.invalidSlot stored.slot stored.label)
  | some slot =>
      let type ← ExceptT.mk (storage.slotType stored.type)
      return ⟨stored.label, BitVec.ofNat 256 slot, stored.offset, type⟩

def Storage.layout (storage : Storage) : ExceptT ArtifactError Option Layout := do
  return ⟨← storage.declarations.mapM storage.storageVariable⟩

-- Adds what an entry describes. The last of several constructors counts.
def addEntry (contract : Contract) (entry : Entry) : Except ArtifactError Contract := do
  match entry.kind with
  | "constructor" =>
      return { contract with constructor := .ofConstructor (← arguments entry.inputs) }
  | "function" =>
      let inputs ← arguments entry.inputs
      let outputs ← abiTypes entry.outputs
      return { contract with methods := contract.methods ++ [⟨⟨entry.name, inputs⟩, outputs⟩] }
  | _ => return contract

def callable (artifact : Artifact) : Except ArtifactError Contract := do
  let creationCode ← decodeCode artifact.creationCode
  let runtimeCode ← decodeCode artifact.runtimeCode
  artifact.entries.foldlM addEntry
    ⟨artifact.contractName.getD "", creationCode, runtimeCode, .ofConstructor [], [], .empty⟩

def contract (artifact : Artifact) : ExceptT ArtifactError Option Contract := do
  let callable ← artifact.callable
  match artifact.storage with
  | some storage => return { callable with layout := ← storage.layout }
  | none => return callable

end Artifact

namespace Contract

def ofArtifact (text : String) : ExceptT ArtifactError Option Contract := do
  (← Artifact.parse text).contract

def ofFile : Option (List UInt8) → ExceptT ArtifactError Option Contract
  | none => throw .unavailable
  | some bytes =>
      match String.fromUTF8? ⟨bytes.toArray⟩ with
      | some text => ofArtifact text
      | none => throw .unreadable

end Contract

namespace Contract

def ofParts? (json : Json) : Option Contract := do
  match ← json.values? [.required "name", .required "creation_code", .required "runtime_code",
      .required "constructor", .required "methods", .required "layout"] with
  | [name, creationCode, runtimeCode, constructor, methods, layout] =>
      return {
        name := ← name.string?
        creationCode := ← creationCode.bytes?
        runtimeCode := ← runtimeCode.bytes?
        constructor := .ofConstructor (← constructor.list? Argument.ofJson?)
        methods := ← methods.list? Method.ofJson?
        layout := ← Layout.ofJson? layout }
  | _ => none

-- A contract is given by its parts or by the text of an artifact.
def ofJson? (json : Json) : Option Contract :=
  match json.values? [.required "artifact"] with
  | some [text] => do (← (ofArtifact (← text.string?)).run).toOption
  | _ => ofParts? json

end Contract

end SpecRecovery
