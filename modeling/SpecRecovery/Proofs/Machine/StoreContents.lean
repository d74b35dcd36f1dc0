import SpecRecovery.Machine.Evaluation
import SpecRecovery.Proofs.Table.Lookup

namespace SpecRecovery.Machine

variable {assignment : Assignment} {slot : Word}

-- What the base holds under all writes. The contents of a concrete base count as writes.
def Store.untouched (assignment : Assignment) (slot : Word) : Store → Word
  | .abstract => assignment.storedValue slot
  | .concrete _ => 0
  | .write _ _ prior => prior.untouched assignment slot

-- A chain of writes with nothing known below.
def Store.OverAbstract : Store → Prop
  | .abstract => True
  | .concrete _ => False
  | .write _ _ prior => prior.OverAbstract

-- A chain of writes to slots that are known.
def Store.LiteralKeys : Store → Prop
  | .abstract => True
  | .concrete _ => True
  | .write key _ prior => (∃ slot, key = .lit slot) ∧ prior.LiteralKeys

theorem Store.untouched_of_overAbstract : (store : Store) → store.OverAbstract →
    store.untouched assignment slot = assignment.storedValue slot
  | .abstract, _ => rfl
  | .concrete _, h => nomatch h
  | .write _ _ prior, h => prior.untouched_of_overAbstract h

-- Where nothing was stored before, no slot holds anything but what is written to it.
theorem Store.untouched_of_nothing_stored (h : ∀ slot, assignment.storedValue slot = 0) :
    (store : Store) → store.untouched assignment slot = 0
  | .abstract => h slot
  | .concrete _ => rfl
  | .write _ _ prior => prior.untouched_of_nothing_stored h

-- A storage in which every slot holds what it held before.
def Store.Unchanged (assignment : Assignment) (store : Store) : Prop :=
  ∀ slot, store.read assignment slot = .ok (assignment.storedValue slot)

theorem Store.unchanged_abstract : Store.abstract.Unchanged assignment := fun _ => rfl

theorem Store.unchanged_empty (h : ∀ slot, assignment.storedValue slot = 0) :
    Store.empty.Unchanged assignment := fun slot => by rw [h]; rfl

theorem find?_foldl_insertNew (entries : List (Word × Word)) (known : Table Word Expr)
    (slot : Word) :
    (entries.foldl (fun known entry => known.insertNew entry.1 (.lit entry.2)) known).find? slot =
      (known.find? slot).or
        ((entries.find? fun entry => compare slot entry.1 == .eq).map
          fun entry => .lit entry.2) := by
  induction entries generalizing known with
  | nil => simp
  | cons entry rest ih =>
      rw [List.foldl_cons, ih, Table.find?_insertNew, List.find?_cons]
      by_cases hkey : compare slot entry.1 = .eq
      · cases known.find? slot <;> simp [hkey]
      · simp [hkey, beq_eq_false_iff_ne.mpr hkey]

-- A write that is known already hides all that are below it.
theorem Store.find?_of_writesBelow : (store : Store) → {known writes : Table Word Expr} →
    {value : Expr} → store.writesBelow known = .ok writes → known.find? slot = some value →
    writes.find? slot = some value
  | .abstract, known, writes, value, h, hknown => by
      obtain rfl := Except.ok.inj h
      exact hknown
  | .concrete slots, known, writes, value, h, hknown => by
      obtain rfl := Except.ok.inj h
      rw [find?_foldl_insertNew, hknown, Option.some_or]
  | .write key held prior, known, writes, value, h, hknown => by
      rw [Store.writesBelow] at h
      split at h
      · refine Store.find?_of_writesBelow prior h ?_
        rw [Table.find?_insertNew, hknown, Option.some_or]
      · cases h

-- Below the known writes, a slot holds what the collected writes say, or what the base holds.
theorem Store.read_of_writesBelow : (store : Store) → {known writes : Table Word Expr} →
    store.writesBelow known = .ok writes → known.find? slot = none →
    store.read assignment slot =
      ((writes.find? slot).map (Expr.eval assignment)).getD
        (.ok (store.untouched assignment slot))
  | .abstract, known, writes, h, hknown => by
      obtain rfl := Except.ok.inj h
      rw [hknown]
      rfl
  | .concrete slots, known, writes, h, hknown => by
      obtain rfl := Except.ok.inj h
      rw [find?_foldl_insertNew, hknown, Option.none_or, Store.read, Table.find?]
      cases slots.entries.find? fun entry => compare slot entry.1 == .eq <;> rfl
  | .write key held prior, known, writes, h, hknown => by
      rw [Store.writesBelow] at h
      split at h
      · next written hliteral =>
          rw [Expr.literal?_eq_some_iff.mp hliteral, Store.read, Expr.eval]
          by_cases hsame : written = slot
          · have hfound : writes.find? slot = some held := by
              refine Store.find?_of_writesBelow prior h ?_
              rw [Table.find?_insertNew, hknown, hsame]
              exact if_pos Std.ReflCmp.compare_self
            rw [hfound]
            exact if_pos hsame
          · have hbelow : (known.insertNew written held).find? slot = none := by
              have hdistinct : compare slot written ≠ .eq :=
                fun heq => hsame (Std.LawfulEqCmp.eq_of_compare heq).symm
              rw [Table.find?_insertNew, hknown, if_neg hdistinct]
              rfl
            rw [Store.untouched, ← Store.read_of_writesBelow prior h hbelow]
            exact if_neg hsame
      · cases h

-- The collected writes say what a slot holds, and where they say nothing the base does.
theorem Store.read_of_writes {store : Store} {writes : Table Word Expr}
    (h : store.writes = .ok writes) :
    store.read assignment slot =
      ((writes.find? slot).map (Expr.eval assignment)).getD
        (.ok (store.untouched assignment slot)) :=
  store.read_of_writesBelow h (Table.find?_empty slot)

end SpecRecovery.Machine
