import SpecRecovery.Machine.Environment
import SpecRecovery.Operator

namespace SpecRecovery.Spec

inductive Kind
  | integer
  | boolean
  | byteString
  | contract
deriving DecidableEq

inductive Timing
  | pre
  | post
deriving DecidableEq

structure StorageItem where
  contract : String
  name : String
  type : AbiType
deriving DecidableEq

inductive BytesExpr
  | lit (value : List UInt8)
  | var (name : String)
deriving DecidableEq

inductive ContractExpr
  | var (name contract : String)
deriving DecidableEq

mutual

-- Denotes an unbounded integer, so that an overflow has to be stated.
inductive IntExpr
  | lit (value : Int)
  | var (name : String) (type : AbiType)
  | env (value : Environment)
  | entry (timing : Timing) (item : StorageItem)
  | arithmetic (op : Arithmetic) (left right : IntExpr)
  | ite (condition : BoolExpr) (first second : IntExpr)

-- Denotes a truth. A range fact says that an integer inhabits a type.
inductive BoolExpr
  | lit (value : Bool)
  | join (op : Connective) (left right : BoolExpr)
  | neg (value : BoolExpr)
  | compare (op : Comparison) (left right : IntExpr)
  | eq (equation : Equation)
  | neq (equation : Equation)
  | inRange (type : AbiType) (value : IntExpr)

inductive Equation
  | integer (left right : IntExpr)
  | boolean (left right : BoolExpr)
  | byteString (left right : BytesExpr)
  | contract (left right : ContractExpr)

end

deriving instance DecidableEq for IntExpr, BoolExpr, Equation

instance : Inhabited IntExpr := ⟨.lit 0⟩

instance : Inhabited BoolExpr := ⟨.lit true⟩

inductive Expr
  | integer (value : IntExpr)
  | boolean (value : BoolExpr)
  | byteString (value : BytesExpr)
  | contract (value : ContractExpr)
deriving DecidableEq

namespace Kind

def name : Kind → String
  | integer => "Integer"
  | boolean => "Boolean"
  | byteString => "ByteString"
  | contract => "Contract"

end Kind

namespace Equation

def kind : Equation → Kind
  | integer _ _ => .integer
  | boolean _ _ => .boolean
  | byteString _ _ => .byteString
  | contract _ _ => .contract

end Equation

namespace Expr

def kind : Expr → Kind
  | integer _ => .integer
  | boolean _ => .boolean
  | byteString _ => .byteString
  | contract _ => .contract

def equation? : Expr → Expr → Option Equation
  | integer left, integer right => some (.integer left right)
  | boolean left, boolean right => some (.boolean left right)
  | byteString left, byteString right => some (.byteString left right)
  | contract left, contract right => some (.contract left right)
  | _, _ => none

end Expr

namespace IntExpr

def pre (item : StorageItem) : IntExpr := entry .pre item

def post (item : StorageItem) : IntExpr := entry .post item

def add (left right : IntExpr) : IntExpr := arithmetic .add left right

def mul (left right : IntExpr) : IntExpr := arithmetic .mul left right

def ofBool (condition : BoolExpr) : IntExpr := ite condition (lit 1) (lit 0)

def isLit (expr : IntExpr) (value : Int) : Bool :=
  match expr with
  | lit literal => literal == value
  | _ => false

def truth? : IntExpr → Option BoolExpr
  | ite condition first second =>
      if first.isLit 1 && second.isLit 0 then some condition else none
  | _ => none

-- Whether the value may come from a signed variable or stored variable. The condition of a
-- conditional does not count, because the value is that of one of its cases.
def mentionsSigned : IntExpr → Bool
  | lit _ | env _ => false
  | var _ type => type.isSigned
  | entry _ item => item.type.isSigned
  | arithmetic _ left right => mentionsSigned left || mentionsSigned right
  | ite _ first second => mentionsSigned first || mentionsSigned second

-- Whether `other` is signed too, or a literal that signed values can take.
def comparesWithSigned (other : IntExpr) : Bool :=
  other.mentionsSigned ||
    match other with
    | lit value => value < twoTo (Word.sizeBits - 1)
    | _ => false

-- Whether the two sides are equal as words exactly if they are equal as integers.
def equatable (left right : IntExpr) : Bool :=
  (!left.mentionsSigned || right.comparesWithSigned) &&
    (!right.mentionsSigned || left.comparesWithSigned)

end IntExpr

namespace BoolExpr

def intEq (left right : IntExpr) : BoolExpr := eq (.integer left right)

def intNeq (left right : IntExpr) : BoolExpr := neq (.integer left right)

def implies (left right : BoolExpr) : BoolExpr := join .impl left right

def conjuncts : BoolExpr → List BoolExpr
  | join .and left right => conjuncts left ++ conjuncts right
  | other => [other]

end BoolExpr

-- Every integer expression within an expression, itself included. An expression stands before its
-- parts, and these stand from left to right.
mutual

def IntExpr.visited : IntExpr → List IntExpr
  | .arithmetic op left right => .arithmetic op left right :: (left.visited ++ right.visited)
  | .ite condition first second =>
      .ite condition first second :: (condition.visited ++ first.visited ++ second.visited)
  | .lit value => [.lit value]
  | .var name type => [.var name type]
  | .env value => [.env value]
  | .entry timing item => [.entry timing item]

def BoolExpr.visited : BoolExpr → List IntExpr
  | .lit _ => []
  | .join _ left right => left.visited ++ right.visited
  | .neg value => value.visited
  | .compare _ left right => left.visited ++ right.visited
  | .eq equation => equation.visited
  | .neq equation => equation.visited
  | .inRange _ value => value.visited

def Equation.visited : Equation → List IntExpr
  | .integer left right => left.visited ++ right.visited
  | .boolean left right => left.visited ++ right.visited
  | .byteString _ _ => []
  | .contract _ _ => []

end

end SpecRecovery.Spec
