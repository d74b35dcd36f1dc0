import SpecRecovery.Machine.Term
import SpecRecovery.Text.Quoted

namespace SpecRecovery.Machine

namespace BinaryOp

def name : BinaryOp → String
  | arithmetic op => op.name
  | compare op => op.name
  | eq => "Eq"
  | and => "And"
  | or => "Or"
  | xor => "Xor"
  | extendSign => "SignExtend"

def sides : BinaryOp → String × String
  | arithmetic op => op.sides
  | extendSign => ("bytes", "value")
  | _ => ("left", "right")

end BinaryOp

mutual

def Expr.render : Expr → String
  | .lit value => Text.node "Lit" [("value", value.text)]
  | .var name => Text.node "Var" [("name", Text.quoted name)]
  | .env value => Text.node "Env" [("value", value.name)]
  | .selector => "Selector"
  | .binary op left right =>
      Text.node op.name [(op.sides.1, left.render), (op.sides.2, right.render)]
  | .isZero number => Text.node "IsZero" [("number", number.render)]
  | .not value => Text.node "Not" [("value", value.render)]
  | .ite condition first second =>
      Text.node "Ite"
        [("condition", condition.render), ("then", first.render), ("otherwise", second.render)]
  | .sload key store => Text.node "SLoad" [("key", key.render), ("storage", store.render)]
  | .keccak data => Text.node "Keccak" [("data", data.render)]

def Store.render : Store → String
  | .abstract => "Abstract"
  | .concrete slots =>
      let contents := slots.entries.map fun entry => entry.1.text ++ ": " ++ entry.2.text
      Text.node "Concrete" [("slots", "\x7b" ++ Text.commaList contents ++ "\x7d")]
  | .write key value prior =>
      Text.node "Write"
        [("key", key.render), ("value", value.render), ("prior", prior.render)]

def Buffer.render : Buffer → String
  | .concrete bytes =>
      Text.node "Concrete" [("bytes", Text.bracketed (bytes.map fun byte => toString byte.toNat))]
  | .abstract name => Text.node "Abstract" [("name", Text.quoted name)]
  | .write offset value base =>
      Text.node "WriteWord"
        [("offset", offset.render), ("value", value.render), ("base", base.render)]

end

def Operand.render : Operand → String
  | .word value => Text.wrapped "Word" value.render
  | .buffer value => Text.wrapped "Buf" value.render
  | .store value => Text.wrapped "Storage" value.render

def Cond.render : Cond → String
  | .bool value => Text.wrapped "Bool" (toString value)
  | .eq left right => Text.node "Eq" [("left", left.render), ("right", right.render)]
  | .compare op left right =>
      Text.node op.name [("left", left.render), ("right", right.render)]
  | .neg inner => Text.wrapped "Neg" inner.render
  | .join op left right =>
      Text.node op.name [(op.sides.1, left.render), (op.sides.2, right.render)]

end SpecRecovery.Machine
