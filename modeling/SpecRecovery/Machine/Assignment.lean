import SpecRecovery.Abi.Interface
import SpecRecovery.Machine.Environment
import SpecRecovery.Table
import SpecRecovery.Text.Quoted

namespace SpecRecovery

-- Concrete words for everything that a term can depend on. What is not mentioned is zero.
structure Assignment where
  calldata : Table String Word
  environment : Table Environment Word
  selector : Word
  storage : Table Word Word
deriving DecidableEq

namespace Assignment

def empty : Assignment := ⟨.empty, .empty, 0, .empty⟩

instance : Inhabited Assignment := ⟨empty⟩

def variableValue (assignment : Assignment) (name : String) : Word :=
  (assignment.calldata.find? name).getD 0

def environmentValue (assignment : Assignment) (value : Environment) : Word :=
  (assignment.environment.find? value).getD 0

def storedValue (assignment : Assignment) (slot : Word) : Word :=
  (assignment.storage.find? slot).getD 0

def equality (name : String) (value : Word) : String := name ++ " = " ++ value.text

def slotText (entry : Word × Word) : String :=
  equality ("storage[" ++ entry.1.text ++ "]") entry.2

def text (assignment : Assignment) : String :=
  let calldata := assignment.calldata.entries.map fun entry => equality entry.1 entry.2
  let environment :=
    assignment.environment.entries.map fun entry => equality entry.1.text entry.2
  let selector := "selector = " ++ (Selector.ofWord assignment.selector).text
  let storage := assignment.storage.entries.map slotText
  "\x7b" ++ Text.commaList (calldata ++ environment ++ [selector] ++ storage) ++ "\x7d"

end Assignment

end SpecRecovery
