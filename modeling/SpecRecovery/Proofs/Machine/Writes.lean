import SpecRecovery.Proofs.Machine.StoreContents

namespace SpecRecovery.Machine

variable {assignment : Assignment} {slot : Word}

theorem Expr.literal?_eq_none_iff {expr : Expr} :
    expr.literal? = none ↔ ∀ value, expr ≠ .lit value := by
  simp only [Option.eq_none_iff_forall_ne_some, ne_eq, Expr.literal?_eq_some_iff]

-- The keys of a chain of writes, the most recent one first.
def Store.writtenKeys : Store → List Expr
  | .abstract => []
  | .concrete _ => []
  | .write key _ prior => key :: prior.writtenKeys

-- What is left of a chain without its writes, among which are the contents of a concrete base.
def Store.base : Store → Store
  | .abstract => .abstract
  | .concrete _ => .empty
  | .write _ _ prior => prior.base

-- The entries as writes on top of a store, in order.
def Store.writeAll (store : Store) (entries : List (Word × Expr)) : Store :=
  entries.foldl (fun store entry => .write (.lit entry.1) entry.2 store) store

theorem Store.read_base : (store : Store) →
    store.base.read assignment slot = .ok (store.untouched assignment slot)
  | .abstract => rfl
  | .concrete _ => rfl
  | .write _ _ prior => prior.read_base

-- The search for symbolic keys goes down the chain, so that the first one found is the most recent.
theorem Store.writesBelow_eq_error_iff : (store : Store) → {known : Table Word Expr} →
    {reason : StorageError} → (store.writesBelow known = .error reason ↔
      ∃ key, store.writtenKeys.find? (fun key => key.literal?.isNone) = some key ∧
        reason = .symbolicKey key)
  | .abstract, known, reason => by simp [writesBelow, writtenKeys, pure, Except.pure]
  | .concrete slots, known, reason => by simp [writesBelow, writtenKeys, pure, Except.pure]
  | .write key held prior, known, reason => by
      rw [writesBelow, writtenKeys, List.find?_cons]
      cases hliteral : key.literal? with
      | some written => exact prior.writesBelow_eq_error_iff
      | none =>
          simp only [Option.isNone_none, Option.some.injEq, exists_eq_left']
          exact ⟨fun h => (Except.error.inj h).symm, fun h => congrArg _ h.symm⟩

theorem Store.exists_writes_eq_error_iff {store : Store} :
    (∃ reason, store.writes = .error reason) ↔
      ∃ key ∈ store.writtenKeys, ∀ value, key ≠ .lit value := by
  have hsearch : (store.writtenKeys.find? fun key => key.literal?.isNone).isSome = true ↔ _ :=
    List.find?_isSome
  simp only [Option.isNone_iff_eq_none, Expr.literal?_eq_none_iff, Option.isSome_iff_exists]
    at hsearch
  simp only [writes, writesBelow_eq_error_iff, ← hsearch]
  exact ⟨fun ⟨_, key, hfound, _⟩ => ⟨key, hfound⟩, fun ⟨key, hfound⟩ => ⟨_, key, hfound, rfl⟩⟩

theorem Store.writes_eq_error_iff {store : Store} {reason : StorageError} :
    store.writes = .error reason ↔
      ∃ newer key older, store.writtenKeys = newer ++ key :: older ∧
        (∀ other ∈ newer, ∃ value, other = .lit value) ∧ (∀ value, key ≠ .lit value) ∧
        reason = .symbolicKey key := by
  have hliteral (other : Expr) : (!other.literal?.isNone) = true ↔ ∃ value, other = .lit value := by
    simp [← Option.isSome_iff_exists.trans (exists_congr fun _ => Expr.literal?_eq_some_iff)]
  simp only [writes, writesBelow_eq_error_iff, List.find?_eq_some_iff_append, hliteral,
    Option.isNone_iff_eq_none, Expr.literal?_eq_none_iff]
  constructor
  · rintro ⟨key, ⟨hkey, newer, older, hkeys, hnewer⟩, rfl⟩
    exact ⟨newer, key, older, hkeys, hnewer, hkey, rfl⟩
  · rintro ⟨newer, key, older, hkeys, hnewer, hkey, rfl⟩
    exact ⟨key, ⟨hkey, newer, older, hkeys, hnewer⟩, rfl⟩

section Rebuilding

variable {entries : List (Word × Expr)}

theorem Store.read_write_lit (written : Word) (value : Expr) (prior : Store) :
    (Store.write (.lit written) value prior).read assignment slot =
      if written = slot then value.eval assignment else prior.read assignment slot := by
  rw [Store.read, Expr.eval]
  rfl

theorem Store.read_writeAll_of_not_mem (h : slot ∉ entries.map Prod.fst) (store : Store) :
    (store.writeAll entries).read assignment slot = store.read assignment slot := by
  induction entries generalizing store with
  | nil => rfl
  | cons entry rest ih =>
      rw [List.map_cons, List.mem_cons, not_or] at h
      have hrest := ih h.2 (.write (.lit entry.1) entry.2 store)
      rw [Store.read_write_lit, if_neg (Ne.symm h.1)] at hrest
      exact hrest

-- Where no slot is written twice, no write hides another.
theorem Store.read_writeAll_of_mem {value : Expr} (hnodup : (entries.map Prod.fst).Nodup)
    (h : (slot, value) ∈ entries) (store : Store) :
    (store.writeAll entries).read assignment slot = value.eval assignment := by
  induction entries generalizing store with
  | nil => exact nomatch h
  | cons entry rest ih =>
      rw [List.map_cons, List.nodup_cons] at hnodup
      rcases List.mem_cons.mp h with rfl | hrest
      · calc
          (store.writeAll ((slot, value) :: rest)).read assignment slot
          _ = (Store.write (.lit slot) value store).read assignment slot :=
            Store.read_writeAll_of_not_mem hnodup.1 _
          _ = value.eval assignment := (Store.read_write_lit slot value store).trans (if_pos rfl)
      · exact ih hnodup.2 hrest (.write (.lit entry.1) entry.2 store)

end Rebuilding

-- The entries say what every slot holds, and their order does not matter.
structure Store.ToldBy (store : Store) (writes : Table Word Expr) : Prop where
  written : ∀ assignment slot value, writes.find? slot = some value →
    store.read assignment slot = value.eval assignment
  unwritten : ∀ assignment slot, writes.find? slot = none →
    store.read assignment slot = .ok (store.untouched assignment slot)
  rebuilt : ∀ entries, entries.Perm writes.entries → ∀ assignment slot,
    (store.base.writeAll entries).read assignment slot = store.read assignment slot

theorem Store.toldBy_writes {store : Store} {writes : Table Word Expr}
    (h : store.writes = .ok writes) : store.ToldBy writes where
  written assignment slot value hfound := by
    rw [Store.read_of_writes h, hfound]
    rfl
  unwritten assignment slot hfound := by
    rw [Store.read_of_writes h, hfound]
    rfl
  rebuilt entries hperm assignment slot := by
    have hnodup : (entries.map Prod.fst).Nodup :=
      (hperm.map Prod.fst).nodup_iff.mpr writes.keys_nodup
    cases hfound : writes.find? slot with
    | none =>
        have habsent : slot ∉ entries.map Prod.fst := fun hmem =>
          Table.not_mem_keys_of_find?_eq_none hfound ((hperm.map Prod.fst).mem_iff.mp hmem)
        rw [Store.read_writeAll_of_not_mem habsent, Store.read_base, Store.read_of_writes h, hfound]
        rfl
    | some value =>
        have hmem : (slot, value) ∈ entries :=
          hperm.mem_iff.mpr (writes.mem_entries_of_find?_eq_some hfound)
        rw [Store.read_writeAll_of_mem hnodup hmem, Store.read_of_writes h, hfound]
        rfl

-- Collecting the writes fails exactly if a slot is not known, and names the key of the most recent
-- such write. Otherwise the writes say what every slot holds.
theorem Store.writes_tell_reads (store : Store) :
    ((∃ reason, store.writes = .error reason) ↔
      ∃ key ∈ store.writtenKeys, ∀ value, key ≠ .lit value) ∧
    (∀ reason, store.writes = .error reason ↔
      ∃ newer key older, store.writtenKeys = newer ++ key :: older ∧
        (∀ other ∈ newer, ∃ value, other = .lit value) ∧ (∀ value, key ≠ .lit value) ∧
        reason = .symbolicKey key) ∧
    ∀ writes, store.writes = .ok writes → store.ToldBy writes :=
  ⟨exists_writes_eq_error_iff, fun _ => writes_eq_error_iff, fun _ => toldBy_writes⟩

-- Slot 7 is written twice above what it was created with, and slot 9 is not written again.
def ledgerStore : Store :=
  .write (.lit 7) (.var "amount") (.write (.lit 7) (.lit 1) (.concrete (.ofList [(7, 5), (9, 6)])))

theorem Store.writes_tell_reads_ledger :
    ledgerStore.writes = .ok (.ofList [(7, .var "amount"), (9, .lit 6)]) ∧
      ledgerStore.ToldBy (.ofList [(7, .var "amount"), (9, .lit 6)]) := by
  have hwrites : ledgerStore.writes = .ok (.ofList [(7, .var "amount"), (9, .lit 6)]) := by
    decide +kernel
  exact ⟨hwrites, (Store.writes_tell_reads ledgerStore).2.2 _ hwrites⟩

end SpecRecovery.Machine
