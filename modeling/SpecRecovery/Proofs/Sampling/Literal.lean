import SpecRecovery.Proofs.Table.Lookup
import SpecRecovery.Sampling.Sampler

namespace SpecRecovery

namespace Machine

-- The literal stands somewhere in the term.
mutual

def Expr.Mentions (literal : Word) : Expr → Prop
  | .lit value => value = literal
  | .var _ | .env _ | .selector => False
  | .binary _ left right => left.Mentions literal ∨ right.Mentions literal
  | .isZero number => number.Mentions literal
  | .not value => value.Mentions literal
  | .ite condition first second =>
      condition.Mentions literal ∨ first.Mentions literal ∨ second.Mentions literal
  | .sload key store => key.Mentions literal ∨ store.Mentions literal
  | .keccak data => data.Mentions literal

def Store.Mentions (literal : Word) : Store → Prop
  | .abstract | .concrete _ => False
  | .write key value prior =>
      key.Mentions literal ∨ value.Mentions literal ∨ prior.Mentions literal

def Buffer.Mentions (literal : Word) : Buffer → Prop
  | .concrete _ | .abstract _ => False
  | .write offset value base =>
      offset.Mentions literal ∨ value.Mentions literal ∨ base.Mentions literal

end

def Operand.Mentions (literal : Word) : Operand → Prop
  | .word value => value.Mentions literal
  | .buffer value => value.Mentions literal
  | .store value => value.Mentions literal

def Cond.Mentions (literal : Word) : Cond → Prop
  | .bool _ => False
  | .eq left right => left.Mentions literal ∨ right.Mentions literal
  | .compare _ left right => left.Mentions literal ∨ right.Mentions literal
  | .neg inner => inner.Mentions literal
  | .join _ left right => left.Mentions literal ∨ right.Mentions literal

end Machine

namespace Sampling

open Machine

variable {literal : Word}

theorem not_mem_slotOfKey (key : Expr) : .literal literal ∉ slotOfKey key := by
  simp [slotOfKey]

mutual

theorem mem_ofExpr_iff : (expr : Expr) → (.literal literal ∈ ofExpr expr ↔ expr.Mentions literal)
  | .lit value => by simp [ofExpr, Expr.Mentions, eq_comm]
  | .var _ | .env _ | .selector => by simp [ofExpr, Expr.Mentions]
  | .binary _ left right => by
      rw [ofExpr, List.mem_append, mem_ofExpr_iff left, mem_ofExpr_iff right, Expr.Mentions]
  | .isZero number => by rw [ofExpr, mem_ofExpr_iff number, Expr.Mentions]
  | .not value => by rw [ofExpr, mem_ofExpr_iff value, Expr.Mentions]
  | .ite condition first second => by
      rw [ofExpr, List.mem_append, List.mem_append, mem_ofExpr_iff condition, mem_ofExpr_iff first,
        mem_ofExpr_iff second, Expr.Mentions, or_assoc]
  | .sload key store => by
      rw [ofExpr, List.mem_append, List.mem_append, mem_ofExpr_iff key, mem_ofStore_iff store,
        Expr.Mentions, or_iff_right (not_mem_slotOfKey key)]
  | .keccak data => by rw [ofExpr, mem_ofBuffer_iff data, Expr.Mentions]

theorem mem_ofStore_iff : (store : Store) →
    (.literal literal ∈ ofStore store ↔ store.Mentions literal)
  | .write key value prior => by
      rw [ofStore, List.mem_append, List.mem_append, List.mem_append, mem_ofExpr_iff key,
        mem_ofExpr_iff value, mem_ofStore_iff prior, Store.Mentions,
        or_iff_right (not_mem_slotOfKey key), or_assoc]
  | .abstract | .concrete _ => by simp [ofStore, Store.Mentions]

theorem mem_ofBuffer_iff : (buffer : Buffer) →
    (.literal literal ∈ ofBuffer buffer ↔ buffer.Mentions literal)
  | .concrete _ | .abstract _ => by simp [ofBuffer, Buffer.Mentions]
  | .write offset value base => by
      rw [ofBuffer, List.mem_append, List.mem_append, mem_ofExpr_iff offset, mem_ofExpr_iff value,
        mem_ofBuffer_iff base, Buffer.Mentions, or_assoc]

end

theorem mem_ofOperand_iff (operand : Operand) :
    .literal literal ∈ ofOperand operand ↔ operand.Mentions literal := by
  cases operand with
  | word value => exact mem_ofExpr_iff value
  | buffer value => exact mem_ofBuffer_iff value
  | store value => exact mem_ofStore_iff value

theorem mem_ofCond_iff (cond : Cond) :
    .literal literal ∈ ofCond cond ↔ cond.Mentions literal := by
  induction cond with
  | bool => simp [ofCond, Cond.Mentions]
  | eq left right =>
      rw [ofCond, List.mem_append, mem_ofOperand_iff, mem_ofOperand_iff, Cond.Mentions]
  | compare op left right =>
      rw [ofCond, List.mem_append, mem_ofExpr_iff, mem_ofExpr_iff, Cond.Mentions]
  | neg inner ih => rw [ofCond, ih, Cond.Mentions]
  | join op left right ihl ihr => rw [ofCond, List.mem_append, ihl, ihr, Cond.Mentions]

-- The words that may be selectors are the literals of four bytes.
theorem mem_selectors_iff {atoms : List Atom} :
    literal ∈ (Sampler.ofAtoms atoms).selectors ↔
      .literal literal ∈ atoms ∧ literal.toNat < twoTo 32 := by
  simp only [Sampler.ofAtoms, List.mem_filter, Table.mem_ascendingKeys, List.mem_filterMap,
    decide_eq_true_iff]
  refine and_congr_left fun _ => ⟨?_, fun h => ⟨.literal literal, h, rfl⟩⟩
  rintro ⟨atom, hatom, hliteral⟩
  cases atom with
  | literal other => exact Option.some.inj hliteral ▸ hatom
  | calldata | environment | slot | selector => exact nomatch hliteral

end Sampling

end SpecRecovery
