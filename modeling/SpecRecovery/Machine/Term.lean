import SpecRecovery.Machine.Environment
import SpecRecovery.Operator
import SpecRecovery.Table
import SpecRecovery.Word

namespace SpecRecovery.Machine

-- The operations on two words. Comparisons and equality give 1 or 0.
inductive BinaryOp
  | arithmetic (op : Arithmetic)
  | compare (op : Comparison)
  | eq
  | and
  | or
  | xor
  | extendSign
deriving DecidableEq

mutual

-- A symbolic word. A conditional takes its first case unless its condition is zero.
inductive Expr
  | lit (value : Word)
  | var (name : String)
  | env (value : Environment)
  | selector
  | binary (op : BinaryOp) (left right : Expr)
  | isZero (number : Expr)
  | not (value : Expr)
  | ite (condition first second : Expr)
  | sload (key : Expr) (store : Store)
  | keccak (data : Buffer)

-- A symbolic storage, which is a base under a chain of writes, the most recent one outside. The
-- abstract base is what the storage held before, and a concrete base holds zero where it says
-- nothing.
inductive Store
  | abstract
  | concrete (slots : Table Word Word)
  | write (key value : Expr) (prior : Store)

-- A symbolic string of bytes, which is a base under writes of whole words.
inductive Buffer
  | concrete (bytes : List UInt8)
  | abstract (name : String)
  | write (offset value : Expr) (base : Buffer)

end

deriving instance DecidableEq for Expr, Store, Buffer

inductive Operand
  | word (value : Expr)
  | buffer (value : Buffer)
  | store (value : Store)
deriving DecidableEq

inductive Cond
  | bool (value : Bool)
  | eq (left right : Operand)
  | compare (op : Comparison) (left right : Expr)
  | neg (inner : Cond)
  | join (op : Connective) (left right : Cond)
deriving DecidableEq

instance : Inhabited Expr := ⟨.lit 0⟩

instance : Inhabited Store := ⟨.abstract⟩

instance : Inhabited Buffer := ⟨.concrete []⟩

instance : Inhabited Cond := ⟨.bool true⟩

namespace BinaryOp

def onWords : BinaryOp → Word → Word → Word
  | arithmetic op, left, right => op.onWords left right
  | compare op, left, right => Word.ofBool (op.onWords left right)
  | eq, left, right => Word.ofBool (left == right)
  | and, left, right => left &&& right
  | or, left, right => left ||| right
  | xor, left, right => left ^^^ right
  | extendSign, bytes, value => Word.extendSign bytes value

end BinaryOp

namespace Expr

def add (left right : Expr) : Expr := binary (.arithmetic .add) left right

def sub (left right : Expr) : Expr := binary (.arithmetic .sub) left right

def mul (left right : Expr) : Expr := binary (.arithmetic .mul) left right

def div (left right : Expr) : Expr := binary (.arithmetic .div) left right

def equals (left right : Expr) : Expr := binary .eq left right

def literal? : Expr → Option Word
  | lit value => some value
  | _ => none

theorem literal?_eq_some_iff {expr : Expr} {value : Word} :
    expr.literal? = some value ↔ expr = .lit value := by
  cases expr <;> simp [literal?]

def isLit (expr : Expr) (value : Word) : Bool := expr.literal? == some value

theorem isLit_iff {expr : Expr} {value : Word} : expr.isLit value = true ↔ expr = .lit value := by
  rw [isLit, beq_iff_eq, literal?_eq_some_iff]

end Expr

namespace Store

def empty : Store := concrete .empty

-- Whether anything is written, the contents of a concrete base included.
def hasWrites : Store → Bool
  | abstract => false
  | concrete slots => !slots.isEmpty
  | write _ _ _ => true

end Store

namespace Buffer

def empty : Buffer := concrete []

def ofWord (value : Expr) : Buffer := write (.lit 0) value empty

end Buffer

namespace Cond

def eqWords (left right : Expr) : Cond := eq (.word left) (.word right)

def lt (left right : Expr) : Cond := compare .lt left right

def leq (left right : Expr) : Cond := compare .leq left right

def geq (left right : Expr) : Cond := compare .geq left right

end Cond

end SpecRecovery.Machine
