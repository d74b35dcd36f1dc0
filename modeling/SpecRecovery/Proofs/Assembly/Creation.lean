import SpecRecovery.Proofs.Assembly.Basic
import SpecRecovery.Proofs.Assembly.RoundTrip

namespace SpecRecovery.Assembling

open Machine Spec

variable {lifter : Lifter}

-- The value that a variable starts with: what the final write to its slot is lifted to, or zero if
-- nothing is written there.
def Starts (lifter : Lifter) : Option Machine.Expr → IntExpr → Prop
  | some term, value => lifter.expr term = .ok value
  | none, value => value = .lit 0

theorem word_of_starts {written : Option Machine.Expr} {value : IntExpr}
    (h : Starts lifter written value) (assignment : Assignment) :
    (written.map (Machine.Expr.eval assignment)).getD (.ok 0) =
      .ok (value.word (.ofStorage assignment lifter.resolver)) := by
  cases written with
  | none =>
      obtain rfl : value = .lit 0 := h
      rfl
  | some term => exact Lifter.eval_of_lifts assignment (Lifter.lifts_of_expr h)

theorem wellSigned_of_starts {written : Option Machine.Expr} {value : IntExpr}
    (h : Starts lifter written value) : value.WellSigned (Lifter.emitted lifter.resolver) := by
  cases written with
  | none =>
      obtain rfl : value = .lit 0 := h
      exact Lifter.unsigned_zero
  | some term => exact Lifter.wellSigned_of_lifts (Lifter.lifts_of_expr h)

-- The empty assignment stores nothing, and so the storage before a creation agrees with it.
theorem unchanged_nothing : Store.empty.Unchanged .empty := Store.unchanged_empty fun _ => rfl

section Initial

variable {writes : Table Word Machine.Expr} {updates : List StorageUpdate}
  (hupdates : List.Forall₂ (fun entry update =>
    lifter.resolver.resolve entry.1 = .ok update.item ∧
      lifter.expr entry.2 = .ok update.value) writes.entries updates)

include hupdates

-- Values are collected by name and looked up by name, but names and slots determine each other.
theorem starts_of_resolve {slot : Word} {item : StorageItem}
    (hitem : lifter.resolver.resolve slot = .ok item) :
    Starts lifter (writes.find? slot)
      (((Table.ofList (updates.map fun update => (update.item.name, update.value))).find?
        item.name).getD (.lit 0)) := by
  have hlists : ∀ update ∈ updates, lifter.resolver.Lists update.item := by
    intro update hupdate
    obtain ⟨entry, _, hentry, _⟩ := (exists_of_forall₂ hupdates).2 update hupdate
    exact Resolver.lists_iff.mpr ⟨entry.1, hentry⟩
  rw [Lowerer.find?_values, ← Lowerer.lastWrite?_eq_lastUpdate? hlists hitem]
  cases hlast : Lowerer.lastWrite? lifter.resolver updates slot with
  | none =>
      rw [find?_of_lastWrite?_eq_none hupdates hlast]
      rfl
  | some update =>
      obtain ⟨term, hfind, _, hlift⟩ := find?_of_lastWrite? hupdates hlast
      rw [hfind]
      exact hlift

theorem forall₂_initialStorage :
    List.Forall₂ (fun entry update => update.item = entry.2 ∧
      Starts lifter (writes.find? entry.1) update.value)
      lifter.resolver.resolvable (initialStorage lifter.resolver updates) := by
  unfold initialStorage
  rw [List.forall₂_map_right_iff, List.forall₂_same]
  intro entry hentry
  exact ⟨rfl, starts_of_resolve hupdates ((lifter.resolver.mem_resolvable_iff _ _).mp hentry)⟩

end Initial

-- The words that the creation leaves behind, told by what is written and by the initial values.
section Created

variable {writes : Table Word Machine.Expr} {initial : List StorageUpdate}
  (hinitial : List.Forall₂ (fun entry update => update.item = entry.2 ∧
    Starts lifter (writes.find? entry.1) update.value) lifter.resolver.resolvable initial)

include hinitial

theorem declared_initial {update : StorageUpdate} (hupdate : update ∈ initial) :
    ∃ slot, lifter.resolver.resolve slot = .ok update.item ∧
      Starts lifter (writes.find? slot) update.value := by
  obtain ⟨⟨slot, item⟩, hentry, hitem, hstarts⟩ := (exists_of_forall₂ hinitial).2 update hupdate
  rw [lifter.resolver.mem_resolvable_iff] at hentry
  exact ⟨slot, hitem ▸ hentry, hstarts⟩

-- No write is lost, since every slot that is written belongs to a variable.
theorem starts_lastWrite? (hwritten : ∀ slot term, writes.find? slot = some term →
      ∃ item, lifter.resolver.resolve slot = .ok item) (slot : Word) :
    Starts lifter (writes.find? slot)
      (((Lowerer.lastWrite? lifter.resolver initial slot).map StorageUpdate.value).getD
        (.lit 0)) := by
  cases hlast : Lowerer.lastWrite? lifter.resolver initial slot with
  | none =>
      cases hfind : writes.find? slot with
      | none => rfl
      | some term =>
          obtain ⟨item, hitem⟩ := hwritten slot term hfind
          obtain ⟨update, hupdate, hsame, _⟩ := (exists_of_forall₂ hinitial).1 (slot, item)
            ((lifter.resolver.mem_resolvable_iff slot item).mpr hitem)
          have hslot := Resolver.slotOf?_of_resolve hitem
          rw [← show update.item = item from hsame] at hslot
          exact absurd (beq_iff_eq.mpr hslot)
            (List.find?_eq_none.mp hlast update (List.mem_reverse.mpr hupdate))
  | some update =>
      obtain ⟨hupdate, hslot⟩ := Lowerer.lastWrite?_eq_some hlast
      obtain ⟨other, hitem, hstarts⟩ := declared_initial hinitial hupdate
      rw [Resolver.slotOf?_of_resolve hitem] at hslot
      obtain rfl := Option.some.inj hslot
      exact hstarts

-- What the initial values are lowered to over empty storage holds in every slot what the creation
-- leaves there, if nothing is stored before.
theorem read_of_initial {store lowered : Store} (hwrites : store.writes = .ok writes)
    (hwritten : ∀ slot term, writes.find? slot = some term →
      ∃ item, lifter.resolver.resolve slot = .ok item)
    (hlowered : (Lowerer.before lifter.resolver .empty).updates .empty initial = .ok lowered)
    {assignment : Assignment} (hnothing : ∀ slot, assignment.storedValue slot = 0) (slot : Word) :
    ∃ value, store.read assignment slot = .ok value ∧
      lowered.read assignment slot = .ok value := by
  have hreflects : (Lowerer.before lifter.resolver .empty).Reflects assignment
      (.ofStorage assignment lifter.resolver) (Lowerer.listedBefore lifter.resolver) :=
    Lowerer.reflects_unchanged rfl (Store.unchanged_empty hnothing) ⟨rfl, rfl, rfl⟩
  have hheld := read_lowered rfl hreflects (fun update hupdate => by
    obtain ⟨_, _, hstarts⟩ := declared_initial hinitial hupdate
    exact wellSigned_of_starts hstarts) hlowered slot
  have hstarts := word_of_starts (starts_lastWrite? hinitial hwritten slot) assignment
  rw [Store.read_of_writes hwrites, store.untouched_of_nothing_stored hnothing, hstarts, hheld]
  cases Lowerer.lastWrite? lifter.resolver initial slot with
  | none => exact ⟨_, rfl, rfl⟩
  | some update => exact ⟨_, rfl, rfl⟩

theorem exists_lowered : ∃ lowered,
    (Lowerer.before lifter.resolver .empty).updates .empty initial = .ok lowered := by
  have hresolver : (Lowerer.before lifter.resolver .empty).resolver = lifter.resolver := rfl
  refine Lowerer.exists_updates hresolver unchanged_nothing (fun update hupdate => ?_)
    (fun update hupdate => ?_) .empty
  · obtain ⟨slot, hitem, _⟩ := declared_initial hinitial hupdate
    exact Resolver.lists_iff.mpr ⟨slot, hitem⟩
  · obtain ⟨_, _, hstarts⟩ := declared_initial hinitial hupdate
    exact wellSigned_of_starts hstarts

end Created

-- The preconditions are lowered to what holds under the same assignments as the conditions of the
-- creation path, if nothing is stored before.
theorem exists_conditions {conditions : List Cond} {values : List BoolExpr}
    (h : Yields (preconditions lifter conditions) values) (initial : List StorageUpdate)
    (post : Store) :
    ∃ lowered, (Lowerer.created lifter.resolver initial post).conditions values = .ok lowered ∧
      ∀ assignment : Assignment, (∀ slot, assignment.storedValue slot = 0) →
        ∃ truth, allHold assignment conditions = .ok truth ∧
          allHold assignment lowered = .ok truth := by
  have hresolver : (Lowerer.created lifter.resolver initial post).resolver = lifter.resolver := rfl
  have hwell := wellSigned_of_preconditions (Lifter.allows_emitted lifter)
    (Lifter.emitted_fact_canonical lifter.resolver) h
  obtain ⟨lowered, hlowered⟩ := Lowerer.exists_conditions hresolver unchanged_nothing hwell
  refine ⟨lowered, hlowered, fun assignment hnothing => ?_⟩
  have hreflects := Lowerer.reflects_unchanged hresolver (Store.unchanged_empty hnothing)
    ⟨rfl, rfl, rfl⟩
  exact allHold_lowered hreflects h hlowered

-- Both paths are taken under the same assignments among those that store nothing before, and leave
-- the same words in all slots.
structure SameCreation (branch other : Branch) : Prop where
  conditions : ∀ assignment : Assignment, (∀ slot, assignment.storedValue slot = 0) →
    ∃ truth, allHold assignment branch.conditions = .ok truth ∧
      allHold assignment other.conditions = .ok truth
  storage : ∃ store written, branch.entrypointStore? = some store ∧
    other.entrypointStore? = some written ∧
    ∀ assignment : Assignment, (∀ slot, assignment.storedValue slot = 0) → ∀ slot, ∃ value,
      store.read assignment slot = .ok value ∧ written.read assignment slot = .ok value

-- What is assembled of a creation path starts every variable with what the path writes to its slot,
-- and is lowered to a path that creates the same. The storage below the writes may be concrete: its
-- contents count as writes.
theorem creation_keeps_every_write {resolver : Resolver} {idioms : Idioms} {interface : Interface}
    {branches : List Branch} {assembled : Constructor}
    (h : (constructor resolver idioms interface branches).run = .ok (.ok assembled)) :
    ∃ branch store writes, branches = [branch] ∧ branch.entrypointStore? = some store ∧
      store.writes = .ok writes ∧
      List.Forall₂ (fun entry update => update.item = entry.2 ∧
        Starts ⟨resolver, interface, idioms⟩ (writes.find? entry.1) update.value)
        resolver.resolvable assembled.initialStorage ∧
      ∀ code, ∃ lowered, Lowerer.constructorBranch resolver assembled code = .ok lowered ∧
        SameCreation branch lowered := by
  obtain ⟨branch, values, updates, rfl, hvalues, hupdates, rfl⟩ := constructor_of_yields h
  obtain ⟨store, writes, hstore, hwrites, hupdates⟩ := updates_of_yields hupdates
  have hinitial := forall₂_initialStorage hupdates
  refine ⟨branch, store, writes, rfl, hstore, hwrites, hinitial, fun code => ?_⟩
  have hwritten : ∀ slot term, writes.find? slot = some term →
      ∃ item, resolver.resolve slot = .ok item := by
    intro slot term hfind
    obtain ⟨update, _, hitem, _⟩ :=
      (exists_of_forall₂ hupdates).1 _ (writes.mem_entries_of_find?_eq_some hfind)
    exact ⟨update.item, hitem⟩
  obtain ⟨written, hlowered⟩ := exists_lowered hinitial
  obtain ⟨conditions, hconditions, hsame⟩ :=
    exists_conditions hvalues (initialStorage resolver updates) written
  exact ⟨.ofStore conditions (.concrete code) written,
    Lowerer.constructorBranch_eq_ok.mpr ⟨written, conditions, hlowered, hconditions, rfl⟩,
    hsame, store, written, hstore,
    Lowerer.entrypointStore?_ofStore conditions (.concrete code) written,
    fun assignment => read_of_initial hinitial hwrites hwritten hlowered⟩

-- Of three variables, one gets its value from the concrete base and one is never written.
def vaultResolver : Resolver :=
  ⟨"Vault", ⟨[.ofValue "total" 0 .uint256, .ofValue "owner" 1 .address,
    .ofValue "limit" 2 .uint256]⟩, by decide, by decide⟩

def vaultInterface : Interface := ⟨"constructor", [⟨"amount", .uint256⟩]⟩

-- The total is written twice, at first to what turns out not to last.
def vaultCreation : Branch := .ofStore
  [.eqWords (.sload (.lit 0) .abstract) (.lit 0), .lt (.lit 0) (.var "amount")]
  (.concrete [])
  (.write (.lit 0) (.var "amount") (.write (.lit 0) (.lit 1) (.concrete (.ofList [(1, 5)]))))

def vaultConstructor : Constructor where
  contract := "Vault"
  interface := vaultInterface
  preconditions := [.eq (.integer (.pre ⟨"Vault", "total", .uint256⟩) (.lit 0)),
    .compare .lt (.lit 0) (.var "amount" .uint256)]
  initialStorage := [⟨⟨"Vault", "total", .uint256⟩, .var "amount" .uint256⟩,
    ⟨⟨"Vault", "owner", .address⟩, .lit 5⟩, ⟨⟨"Vault", "limit", .uint256⟩, .lit 0⟩]

theorem creation_keeps_every_write_vault :
    (constructor vaultResolver .all vaultInterface [vaultCreation]).run =
      .ok (.ok vaultConstructor) ∧
    ∃ lowered, Lowerer.constructorBranch vaultResolver vaultConstructor [0xfe] = .ok lowered ∧
      SameCreation vaultCreation lowered := by
  have hassembled : (constructor vaultResolver .all vaultInterface [vaultCreation]).run =
      .ok (.ok vaultConstructor) := by decide +kernel
  obtain ⟨branch, store, writes, hbranch, _, _, _, hlowered⟩ :=
    creation_keeps_every_write hassembled
  obtain rfl := List.singleton_inj.mp hbranch
  exact ⟨hassembled, hlowered [0xfe]⟩

end SpecRecovery.Assembling
