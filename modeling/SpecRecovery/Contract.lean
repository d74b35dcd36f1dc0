import SpecRecovery.Abi.Interface
import SpecRecovery.Json.Basic
import SpecRecovery.Layout.Basic

namespace SpecRecovery

inductive EntryPoint
  | constructor
  | method (signature : String)
  | runtime
deriving DecidableEq

namespace EntryPoint

def ofMethod (method : Method) : EntryPoint := .method method.signature

def text : EntryPoint → String
  | constructor => "constructor"
  | method signature => signature
  | runtime => "runtime"

def rank : EntryPoint → Nat
  | constructor => 0
  | method _ => 1
  | runtime => 2

def signature : EntryPoint → String
  | method signature => signature
  | _ => ""

-- The constructor comes first, then the methods by signature, then the running code as a whole.
instance : Ord EntryPoint := ⟨compareLex (compareOn rank) (compareOn signature)⟩

instance : Std.TransOrd EntryPoint :=
  inferInstanceAs (Std.TransCmp (compareLex (compareOn rank) (compareOn signature)))

def toJson : EntryPoint → Json
  | constructor => .string "constructor"
  | method signature => .alternative "method" [("signature", .string signature)]
  | runtime => .string "runtime"

def ofJson? (json : Json) : Option EntryPoint := do
  let (name, content) ← json.variant?
  match name with
  | "constructor" => if Json.isUnit content then some constructor else none
  | "runtime" => if Json.isUnit content then some runtime else none
  | "method" =>
      match ← (← content).values? [.required "signature"] with
      | [signature] => return method (← signature.string?)
      | _ => none
  | _ => none

end EntryPoint

structure Contract where
  name : String
  creationCode : List UInt8
  runtimeCode : List UInt8
  constructor : Interface
  methods : List Method
  layout : Layout
deriving DecidableEq

def Interface.ofConstructor (arguments : List Argument) : Interface := ⟨"constructor", arguments⟩

namespace Contract

def method? (contract : Contract) (signature : String) : Option Method :=
  contract.methods.find? fun method => method.signature == signature

def entryPoints (contract : Contract) : List EntryPoint :=
  .constructor :: contract.methods.map .ofMethod

end Contract

end SpecRecovery
