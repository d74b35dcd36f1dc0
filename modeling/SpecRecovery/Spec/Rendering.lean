import SpecRecovery.Abi.Spelling
import SpecRecovery.Spec.Expression

namespace SpecRecovery.Spec

def StorageItem.text (item : StorageItem) : String := item.contract ++ "." ++ item.name

def BytesExpr.text : BytesExpr → String
  | .lit value => "0x" ++ String.ofList (Text.hexOfBytes value)
  | .var name => name

def ContractExpr.text : ContractExpr → String
  | .var name _ => name

def between (left symbol right : String) : String :=
  "(" ++ left ++ " " ++ symbol ++ " " ++ right ++ ")"

mutual

def IntExpr.text : IntExpr → String
  | .lit value => Text.integerText value
  | .var name _ => name
  | .env value => value.text
  | .entry .pre item => "pre(" ++ item.name ++ ")"
  | .entry .post item => "post(" ++ item.name ++ ")"
  | .arithmetic op left right => between left.text op.symbol right.text
  | .ite condition first second =>
      "(if " ++ condition.text ++ " then " ++ first.text ++ " else " ++ second.text ++ ")"

def BoolExpr.text : BoolExpr → String
  | .lit value => toString value
  | .join op left right => between left.text op.symbol right.text
  | .neg value => "not(" ++ value.text ++ ")"
  | .compare op left right => between left.text op.symbol right.text
  | .eq equation =>
      let sides := equation.texts
      between sides.1 "==" sides.2
  | .neq equation =>
      let sides := equation.texts
      between sides.1 "!=" sides.2
  | .inRange type value => "inRange(" ++ type.text ++ ", " ++ value.text ++ ")"

def Equation.texts : Equation → String × String
  | .integer left right => (left.text, right.text)
  | .boolean left right => (left.text, right.text)
  | .byteString left right => (left.text, right.text)
  | .contract left right => (left.text, right.text)

end

def Expr.text : Expr → String
  | .integer value => value.text
  | .boolean value => value.text
  | .byteString value => value.text
  | .contract value => value.text

end SpecRecovery.Spec
