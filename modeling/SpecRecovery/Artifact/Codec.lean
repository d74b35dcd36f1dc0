import SpecRecovery.Artifact.Basic
import SpecRecovery.Json.Basic
import SpecRecovery.Json.Reader

namespace SpecRecovery

namespace Artifact

-- The value of a field that may be left out, but not be null.
def orElse {α : Type} (default : α) (decode : Json → Option α) : Option Json → Option α
  | none => some default
  | some json => decode json

def nullable {α : Type} (decode : Json → Option α) : Json → Option (Option α)
  | .null => some none
  | json => (decode json).map some

def optional {α : Type} (decode : Json → Option α) : Option Json → Option (Option α) :=
  orElse none (nullable decode)

-- Reads a parameter whose value has at most `depth` containers around each other. No parameter is
-- written without a container.
def Parameter.decode (depth : Nat) (json : Json) : Option Parameter :=
  match depth with
  | 0 => none
  | depth + 1 => do
      match ← json.record? [.defaulted "name", .required "type", .defaulted "components"] with
      | [name, some type, components] =>
          let decodeList (json : Json) : Option (List Parameter) := do
            (← json.array?).mapM (decode depth)
          return {
            name := ← orElse "" Json.string? name
            type := ← type.string?
            components := ← orElse [] decodeList components }
      | _ => none

def Parameter.ofJson? (json : Json) : Option Parameter := Parameter.decode json.depth json

def parametersOfJson? (json : Json) : Option (List Parameter) := do
  (← json.array?).mapM Parameter.ofJson?

def Entry.ofJson? (json : Json) : Option Entry := do
  match ← json.record?
      [.required "type", .defaulted "name", .defaulted "inputs", .defaulted "outputs"] with
  | [some kind, name, inputs, outputs] =>
      return {
        kind := ← kind.string?
        name := ← orElse "" Json.string? name
        inputs := ← orElse [] parametersOfJson? inputs
        outputs := ← orElse [] parametersOfJson? outputs }
  | _ => none

def Variable.ofJson? (json : Json) : Option Variable := do
  match ← json.values?
      [.required "label", .required "slot", .required "offset", .required "type"] with
  | [label, slot, offset, type] =>
      return ⟨← label.string?, ← slot.string?, ← offset.count?, ← type.string?⟩
  | _ => none

def TypeDescription.ofJson? (json : Json) : Option TypeDescription := do
  match ← json.record? [.required "encoding", .required "label", .defaulted "key",
      .defaulted "value", .required "numberOfBytes"] with
  | [some encoding, some label, key, value, some byteCount] =>
      return {
        encoding := ← encoding.string?
        label := ← label.string?
        key := ← optional Json.string? key
        value := ← optional Json.string? value
        byteCount := ← byteCount.string? }
  | _ => none

def Storage.ofJson? (json : Json) : Option Storage := do
  match ← json.record? [.required "storage", .defaulted "types"] with
  | [some declarations, types] =>
      return {
        declarations := ← (← declarations.array?).mapM Variable.ofJson?
        types := ← orElse Table.empty (Table.ofJson? TypeDescription.ofJson?) types }
  | _ => none

def codeOfJson? (json : Json) : Option String := do
  match ← json.values? [.required "object"] with
  | [object] => object.string?
  | _ => none

def ofJson? (json : Json) : Option Artifact := do
  match ← json.record? [.defaulted "contractName", .required "abi", .required "bytecode",
      .required "deployedBytecode", .defaulted "storageLayout"] with
  | [contractName, some entries, some creationCode, some runtimeCode, storage] =>
      return {
        contractName := ← optional Json.string? contractName
        entries := ← (← entries.array?).mapM Entry.ofJson?
        creationCode := ← codeOfJson? creationCode
        runtimeCode := ← codeOfJson? runtimeCode
        storage := ← optional Storage.ofJson? storage }
  | _ => none

def parse (text : String) : Except ArtifactError Artifact :=
  match (Json.readBounded? text).bind ofJson? with
  | some artifact => return artifact
  | none => throw .malformed

end Artifact

end SpecRecovery
