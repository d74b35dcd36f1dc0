import SpecRecovery.Abi.Spelling
import SpecRecovery.Table

namespace SpecRecovery

structure Artifact.Parameter where
  name : String
  type : String
  components : List Artifact.Parameter

structure Artifact.Entry where
  kind : String
  name : String
  inputs : List Artifact.Parameter
  outputs : List Artifact.Parameter

structure Artifact.Variable where
  label : String
  slot : String
  offset : Nat
  type : String
deriving DecidableEq

-- A type of stored declarations. Mappings name the types of their keys and values.
structure Artifact.TypeDescription where
  encoding : String
  label : String
  key : Option String
  value : Option String
  byteCount : String
deriving DecidableEq

structure Artifact.Storage where
  declarations : List Artifact.Variable
  types : Table String Artifact.TypeDescription
deriving DecidableEq

structure Artifact where
  contractName : Option String
  entries : List Artifact.Entry
  creationCode : String
  runtimeCode : String
  storage : Option Artifact.Storage

inductive ArtifactError
  | malformed
  | unavailable
  | unreadable
  | invalidCode
  | invalidType (error : AbiType.Invalid)
  | invalidSlot (slot label : String)
  | unknownType (id : String)
  | keylessMapping (id : String)
  | valuelessMapping (id : String)
  | unsupportedType (label : String)
  | invalidWidth (label : String)
deriving DecidableEq

def ArtifactError.message : ArtifactError → String
  | malformed => "Could not parse artifact"
  | unavailable => "File not available"
  | unreadable => "File could not be read"
  | invalidCode => "Could not decode hex"
  | invalidType error => error.message
  | invalidSlot slot label => "Invalid slot " ++ slot ++ " for " ++ label
  | unknownType id => "Unknown storage type " ++ id
  | keylessMapping id => "Mapping " ++ id ++ " has no key type"
  | valuelessMapping id => "Mapping " ++ id ++ " has no value type"
  | unsupportedType label => "Unsupported storage type " ++ label
  | invalidWidth label => "Invalid width for " ++ label

end SpecRecovery
