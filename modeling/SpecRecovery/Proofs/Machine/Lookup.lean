import SpecRecovery.Machine.Evaluation

namespace SpecRecovery

namespace Assignment

-- Nothing that is looked up tells the two apart, however their tables are filled.
structure SameValues (first second : Assignment) : Prop where
  calldata : ∀ name, first.variableValue name = second.variableValue name
  environment : ∀ value, first.environmentValue value = second.environmentValue value
  selector : first.selector = second.selector
  storage : ∀ slot, first.storedValue slot = second.storedValue slot

end Assignment

namespace Machine

variable {first second : Assignment}

-- Evaluation sees an assignment through its values only.
mutual

theorem Expr.eval_congr (h : first.SameValues second) :
    (expr : Expr) → expr.eval first = expr.eval second
  | .lit _ => rfl
  | .var name => by rw [Expr.eval, Expr.eval, h.calldata]
  | .env value => by rw [Expr.eval, Expr.eval, h.environment]
  | .selector => by rw [Expr.eval, Expr.eval, h.selector]
  | .binary op left right => by
      rw [Expr.eval, Expr.eval, Expr.eval_congr h left, Expr.eval_congr h right]
  | .isZero number => by rw [Expr.eval, Expr.eval, Expr.eval_congr h number]
  | .not value => by rw [Expr.eval, Expr.eval, Expr.eval_congr h value]
  | .ite condition one other => by
      rw [Expr.eval, Expr.eval, Expr.eval_congr h condition, Expr.eval_congr h one,
        Expr.eval_congr h other]
  | .sload key store => by
      simp only [Expr.eval, Expr.eval_congr h key, Store.read_congr h store]
  | .keccak data => by rw [Expr.eval, Expr.eval, Buffer.bytes_congr h data]

theorem Store.read_congr (h : first.SameValues second) :
    (store : Store) → (slot : Word) → store.read first slot = store.read second slot
  | .abstract, slot => by rw [Store.read, Store.read, h.storage]
  | .concrete _, _ => by rw [Store.read, Store.read]
  | .write key value prior, slot => by
      rw [Store.read, Store.read, Expr.eval_congr h key, Expr.eval_congr h value,
        Store.read_congr h prior]

theorem Buffer.bytes_congr (h : first.SameValues second) :
    (buffer : Buffer) → buffer.bytes first = buffer.bytes second
  | .concrete _ => by rw [Buffer.bytes, Buffer.bytes]
  | .abstract _ => by rw [Buffer.bytes, Buffer.bytes]
  | .write offset value base => by
      rw [Buffer.bytes, Buffer.bytes, Expr.eval_congr h offset, Expr.eval_congr h value,
        Buffer.bytes_congr h base]

end

theorem Cond.holds_congr (h : first.SameValues second) (cond : Cond) :
    cond.holds first = cond.holds second := by
  induction cond with
  | bool => rfl
  | eq left right =>
      cases left <;> cases right <;>
        simp only [Cond.holds, Expr.eval_congr h, Buffer.bytes_congr h]
  | compare op left right => simp only [Cond.holds, Expr.eval_congr h]
  | neg inner ih => rw [Cond.holds, Cond.holds, ih]
  | join op left right ihl ihr => rw [Cond.holds, Cond.holds, ihl, ihr]

theorem allHold_congr (h : first.SameValues second) (conds : List Cond) :
    allHold first conds = allHold second conds := by
  induction conds with
  | nil => rfl
  | cons cond rest ih => rw [allHold, allHold, cond.holds_congr h, ih]

end Machine

end SpecRecovery
