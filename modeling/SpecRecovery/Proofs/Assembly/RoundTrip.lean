import SpecRecovery.Proofs.Assembly.Entry
import SpecRecovery.Proofs.Lowering.Acceptance
import SpecRecovery.Proofs.Lowering.Branch
import SpecRecovery.Proofs.Machine.StoreContents

namespace SpecRecovery.Assembling

open Machine Spec

variable {lifter : Lifter} {word : Bool} {branch : Branch} {recovered : Behaviour}

section Writes

variable {writes : Table Word Machine.Expr} {updates : List StorageUpdate} {slot : Word}
  (hupdates : List.Forall₂ (fun entry update =>
    lifter.resolver.resolve entry.1 = .ok update.item ∧
      lifter.expr entry.2 = .ok update.value) writes.entries updates)

include hupdates

-- The last update that concerns a slot is the final write to it.
theorem find?_of_lastWrite? {update : StorageUpdate}
    (h : Lowerer.lastWrite? lifter.resolver updates slot = some update) :
    ∃ term, writes.find? slot = some term ∧ lifter.resolver.resolve slot = .ok update.item ∧
      lifter.expr term = .ok update.value := by
  obtain ⟨hupdate, hslot⟩ := Lowerer.lastWrite?_eq_some h
  obtain ⟨⟨written, term⟩, hentry, hitem, hlift⟩ :=
    (exists_of_forall₂ hupdates).2 update hupdate
  rw [Resolver.slotOf?_of_resolve hitem] at hslot
  obtain rfl := Option.some.inj hslot
  exact ⟨term, writes.find?_eq_some_of_mem_entries hentry, hitem, hlift⟩

theorem find?_of_lastWrite?_eq_none
    (h : Lowerer.lastWrite? lifter.resolver updates slot = none) : writes.find? slot = none := by
  rw [Option.eq_none_iff_forall_ne_some]
  intro term hfind
  obtain ⟨update, hupdate, hitem, _⟩ :=
    (exists_of_forall₂ hupdates).1 _ (writes.mem_entries_of_find?_eq_some hfind)
  exact List.find?_eq_none.mp h update (List.mem_reverse.mpr hupdate)
    (beq_iff_eq.mpr (Resolver.slotOf?_of_resolve hitem))

end Writes

-- The conditions of a path and what they are lowered back to hold alike, in whatever state the
-- machine finds what lifting writes.
theorem allHold_lowered {conditions lowered : List Cond} {values : List BoolExpr}
    {lowerer : Lowerer} {assignment : Assignment}
    (hreflects : lowerer.Reflects assignment (.ofStorage assignment lifter.resolver)
      (Lowerer.listedBefore lifter.resolver))
    (h : Yields (preconditions lifter conditions) values)
    (hlowered : lowerer.conditions values = .ok lowered) :
    ∃ truth, allHold assignment conditions = .ok truth ∧
      allHold assignment lowered = .ok truth := by
  have hwell := wellSigned_of_preconditions (Lifter.allows_emitted lifter)
    (Lifter.emitted_fact_canonical lifter.resolver) h
  obtain ⟨truth, htruth, hiff⟩ := allHold_of_preconditions h assignment
  obtain ⟨other, hother, hsame⟩ := Lowerer.allHold_conditions hreflects
    (fun value hvalue => value.builtFrom_of_wellSigned
      (Lowerer.emitted_within_reading lifter.resolver) (hwell value hvalue)) hlowered
  obtain rfl : truth = other := Bool.eq_iff_iff.mpr (hiff.trans hsame.symm)
  exact ⟨truth, htruth, hother⟩

-- What the updates are lowered to holds the word of the last update of a slot.
theorem read_lowered {updates : List StorageUpdate} {lowerer : Lowerer} {base lowered : Store}
    {assignment : Assignment} (hresolver : lowerer.resolver = lifter.resolver)
    (hreflects : lowerer.Reflects assignment (.ofStorage assignment lifter.resolver)
      (Lowerer.listedBefore lifter.resolver))
    (hwell : ∀ update ∈ updates, update.value.WellSigned (Lifter.emitted lifter.resolver))
    (hlowered : lowerer.updates base updates = .ok lowered) (slot : Word) :
    lowered.read assignment slot =
      ((Lowerer.lastWrite? lifter.resolver updates slot).map fun update =>
        .ok (update.value.word (.ofStorage assignment lifter.resolver))).getD
          (base.read assignment slot) := by
  have hread := Lowerer.read_of_updates hlowered
    (fun update => update.value.word (.ofStorage assignment lifter.resolver))
    (fun update hupdate _ => Lowerer.eval_of_expr hreflects update.value
      (update.value.builtFrom_of_wellSigned (Lowerer.emitted_within_reading lifter.resolver)
        (hwell update hupdate))) slot
  rwa [hresolver] at hread

namespace Recovers

-- What is recovered keeps signed values apart, and so it can be lowered.
theorem wellSigned_preconditions (h : Recovers lifter word branch recovered) :
    ∀ value ∈ recovered.preconditions, value.WellSigned (Lifter.emitted lifter.resolver) :=
  wellSigned_of_preconditions (Lifter.allows_emitted lifter)
    (Lifter.emitted_fact_canonical lifter.resolver) (yields_preconditions.mpr h.preconditions)

theorem declared_update (h : Recovers lifter word branch recovered) :
    ∀ update ∈ recovered.storageUpdates, lifter.resolver.Lists update.item ∧
      update.value.WellSigned (Lifter.emitted lifter.resolver) := by
  obtain ⟨_, writes, _, _, hupdates⟩ := h.updates
  intro update hupdate
  obtain ⟨entry, _, hitem, _⟩ := (exists_of_forall₂ hupdates).2 update hupdate
  exact ⟨Resolver.lists_iff.mpr ⟨entry.1, hitem⟩,
    wellSigned_of_updates (Lifter.allows_emitted lifter) hupdates update hupdate⟩

-- The last update that concerns a slot has the value of the final write to it.
theorem eval_find?_writes {writes : Table Word Machine.Expr} {updates : List StorageUpdate}
    (hupdates : List.Forall₂ (fun entry update =>
      lifter.resolver.resolve entry.1 = .ok update.item ∧
        lifter.expr entry.2 = .ok update.value) writes.entries updates)
    (assignment : Assignment) (slot : Word) :
    (writes.find? slot).map (Machine.Expr.eval assignment) =
      (Lowerer.lastWrite? lifter.resolver updates slot).map fun update =>
        .ok (update.value.word (.ofStorage assignment lifter.resolver)) := by
  cases hlast : Lowerer.lastWrite? lifter.resolver updates slot with
  | none => rw [find?_of_lastWrite?_eq_none hupdates hlast]; rfl
  | some update =>
      obtain ⟨term, hfind, _, hlift⟩ := find?_of_lastWrite? hupdates hlast
      rw [hfind, Option.map_some, Option.map_some,
        Lifter.eval_of_lifts assignment (Lifter.lifts_of_expr hlift)]

theorem exists_read (h : Recovers lifter word branch recovered)
    {store : Store} (hstore : branch.entrypointStore? = some store) (hbase : store.OverAbstract)
    {lowered : Store}
    (hlowered : (Lowerer.before lifter.resolver .abstract).updates .abstract
      recovered.storageUpdates = .ok lowered)
    (assignment : Assignment) (slot : Word) :
    ∃ value, store.read assignment slot = .ok value ∧ lowered.read assignment slot = .ok value := by
  obtain ⟨found, writes, hfound, hwrites, hupdates⟩ := h.updates
  obtain rfl := Option.some.inj (hfound.symm.trans hstore)
  have hreflects : (Lowerer.before lifter.resolver .abstract).Reflects assignment
      (.ofStorage assignment lifter.resolver) (Lowerer.listedBefore lifter.resolver) :=
    Lowerer.reflects_before rfl rfl ⟨rfl, rfl, rfl⟩
  have hwritten := read_lowered rfl hreflects
    (fun update hupdate => (h.declared_update update hupdate).2) hlowered slot
  rw [hwritten, Store.read_of_writes hwrites, found.untouched_of_overAbstract hbase,
    eval_find?_writes hupdates assignment slot]
  cases Lowerer.lastWrite? lifter.resolver recovered.storageUpdates slot with
  | none => exact ⟨_, rfl, rfl⟩
  | some update => exact ⟨_, rfl, rfl⟩

-- One returned word is lowered to the bytes that the path returns.
theorem bytes_returned (h : Recovers lifter word branch recovered) {assignment : Assignment}
    {bytes : List UInt8} (hbytes : branch.returned.bytes assignment = .ok bytes)
    (hlength : bytes.length = if word then Word.sizeBytes else 0) {lowerer : Lowerer}
    (hreflects : lowerer.Reflects assignment (.ofStorage assignment lifter.resolver)
      (Lowerer.listedBefore lifter.resolver)) {returned : Buffer}
    (hreturned : lowerer.Returns recovered.returns returned) :
    returned.bytes assignment = .ok bytes := by
  cases word with
  | false =>
      rw [h.silent rfl] at hreturned
      obtain rfl : returned = Buffer.empty := hreturned
      rw [List.length_eq_zero_iff.mp hlength]
      rfl
  | true =>
      obtain ⟨term, value, hterm, hlift, hvalue⟩ := h.returned rfl
      rw [hvalue] at hreturned
      have hlifts := Lifter.lifts_of_expr hlift
      have hbuilt := value.builtFrom_of_wellSigned
        (Lowerer.emitted_within_reading lifter.resolver) (Lifter.wellSigned_of_lifts hlifts)
      obtain ⟨held, hheld, hsame⟩ := wordBytes_of_wordAt? (by decide) branch.returned hterm hbytes
      rw [wordBytes_zero hlength] at hsame
      rw [Lifter.eval_of_lifts assignment hlifts] at hheld
      obtain rfl := Except.ok.inj hheld
      rw [hsame]
      exact Lowerer.bytes_of_returns hreflects hbuilt hreturned

end Recovers

-- Under an assignment, the paths are taken together, leave the same words in all slots, and return
-- the same bytes if the first returns as many as it is said to.
structure Indistinguishable (assignment : Assignment) (length : Nat) (branch other : Branch) :
    Prop where
  conditions : ∃ truth, allHold assignment branch.conditions = .ok truth ∧
    allHold assignment other.conditions = .ok truth
  storage : ∃ store written, branch.entrypointStore? = some store ∧
    other.entrypointStore? = some written ∧ ∀ slot, ∃ value,
      store.read assignment slot = .ok value ∧ written.read assignment slot = .ok value
  returned : ∀ bytes, branch.returned.bytes assignment = .ok bytes → bytes.length = length →
    other.returned.bytes assignment = .ok bytes

theorem Recovers.exists_branch (h : Recovers lifter word branch recovered) :
    ∃ lowered, Lowerer.behaviourBranch lifter.resolver recovered = .ok lowered := by
  have hinitial : (Lowerer.before lifter.resolver .abstract).resolver = lifter.resolver := rfl
  obtain ⟨store, hstore⟩ := Lowerer.exists_updates hinitial Store.unchanged_abstract
    (fun update hupdate => (h.declared_update update hupdate).1)
    (fun update hupdate => (h.declared_update update hupdate).2) .abstract
  have hafter : (Lowerer.after lifter.resolver recovered.storageUpdates store).resolver =
      lifter.resolver := rfl
  obtain ⟨conditions, hconditions⟩ :=
    Lowerer.exists_conditions hafter Store.unchanged_abstract h.wellSigned_preconditions
  cases hreturns : recovered.returns with
  | none =>
      exact ⟨_, Lowerer.behaviourBranch_eq_ok.mpr
        ⟨store, conditions, .empty, hstore, hconditions, by rw [hreturns]; rfl, rfl⟩⟩
  | some value =>
      have hwell := h.wellSigned_returns (Lifter.allows_emitted lifter) hreturns
      obtain ⟨term, hterm⟩ := Lowerer.exists_expr hafter Store.unchanged_abstract value hwell
      exact ⟨_, Lowerer.behaviourBranch_eq_ok.mpr ⟨store, conditions, .ofWord term, hstore,
        hconditions, by rw [hreturns]; exact ⟨term, hterm, rfl⟩, rfl⟩⟩

theorem Recovers.indistinguishable (h : Recovers lifter word branch recovered)
    (hbase : ∀ store, branch.entrypointStore? = some store → store.OverAbstract)
    {lowered : Branch} (hlowered : Lowerer.behaviourBranch lifter.resolver recovered = .ok lowered)
    (assignment : Assignment) :
    Indistinguishable assignment (if word then Word.sizeBytes else 0) branch lowered := by
  obtain ⟨written, conditions, returned, hwritten, hconditions, hreturned, rfl⟩ :=
    Lowerer.behaviourBranch_eq_ok.mp hlowered
  have hreflects : (Lowerer.after lifter.resolver recovered.storageUpdates written).Reflects
      assignment (.ofStorage assignment lifter.resolver)
      (Lowerer.listedBefore lifter.resolver) :=
    Lowerer.reflects_before rfl rfl ⟨rfl, rfl, rfl⟩
  constructor
  case conditions =>
    exact allHold_lowered hreflects (yields_preconditions.mpr h.preconditions) hconditions
  case storage =>
    obtain ⟨store, _, hstore, _⟩ := h.updates
    exact ⟨store, written, hstore, Lowerer.entrypointStore?_ofStore conditions returned written,
      h.exists_read hstore (hbase store hstore) hwritten assignment⟩
  case returned =>
    exact fun bytes hbytes hlength => h.bytes_returned hbytes hlength hreflects hreturned

-- Every path of a method is told apart from what its behaviour is lowered to by no assignment.
theorem lowered_behaviours_indistinguishable {resolver : Resolver} {idioms : Idioms}
    {summary : MethodSummary} {recovered : List Behaviour}
    (hbase : ∀ branch ∈ summary.branches, ∀ store, branch.entrypointStore? = some store →
      store.OverAbstract)
    (h : (behaviours resolver idioms summary).run = .ok (.ok recovered)) :
    List.Forall₂ (fun branch behaviour =>
      ∃ lowered, Lowerer.behaviourBranch resolver behaviour = .ok lowered ∧
        ∀ assignment, Indistinguishable assignment
          (Word.sizeBytes * summary.method.outputs.length) branch lowered)
      summary.branches recovered := by
  obtain ⟨word, houtputs, hrecovers⟩ := recovers_of_behaviours h
  have hlength : (if word then Word.sizeBytes else 0) =
      Word.sizeBytes * summary.method.outputs.length := by
    rw [houtputs]
    cases word <;> rfl
  have hpaths := (List.forall₂_and_left _ _).mpr ⟨hbase, hrecovers⟩
  refine hpaths.imp fun branch behaviour ⟨hbranch, hrecovered⟩ => ?_
  obtain ⟨lowered, hlowered⟩ := hrecovered.exists_branch
  refine ⟨lowered, hlowered, fun assignment => ?_⟩
  rw [← hlength]
  exact hrecovered.indistinguishable hbranch hlowered assignment

-- A tally of numbers as long as their sum is a word.
def tallyResolver : Resolver :=
  ⟨"Tally", ⟨[.ofValue "sum" 0 .uint256]⟩, by decide, by decide⟩

def tallySum : Machine.Expr := .add (.sload (.lit 0) .abstract) (.var "number")

-- The path clears the tally before it writes the sum, and returns what it has written.
def tallySummary : MethodSummary where
  method := ⟨⟨"count", [⟨"number", .uint256⟩]⟩, [.uint256]⟩
  branches := [.ofStore
    [.neg (.lt (.binary .xor (.var "number") (.lit Word.max)) (.sload (.lit 0) .abstract))]
    (.ofWord tallySum) (.write (.lit 0) tallySum (.write (.lit 0) (.lit 0) .abstract))]

def tallyItem : StorageItem := ⟨"Tally", "sum", .uint256⟩

def tallyBehaviour : Behaviour where
  name := "count"
  contract := "Tally"
  interface := tallySummary.method.interface
  branch := 0
  preconditions := [.inRange .uint256 (.add (.var "number" .uint256) (.pre tallyItem))]
  storageUpdates := [⟨tallyItem, .add (.pre tallyItem) (.var "number" .uint256)⟩]
  returns := some (.add (.pre tallyItem) (.var "number" .uint256))

theorem lowered_behaviours_indistinguishable_tally :
    (∀ branch ∈ tallySummary.branches, ∀ store, branch.entrypointStore? = some store →
      store.OverAbstract) ∧
    (behaviours tallyResolver .all tallySummary).run = .ok (.ok [tallyBehaviour]) ∧
    List.Forall₂ (fun branch behaviour =>
      ∃ lowered, Lowerer.behaviourBranch tallyResolver behaviour = .ok lowered ∧
        ∀ assignment, Indistinguishable assignment
          (Word.sizeBytes * tallySummary.method.outputs.length) branch lowered)
      tallySummary.branches [tallyBehaviour] := by
  have hbase : ∀ branch ∈ tallySummary.branches, ∀ store,
      branch.entrypointStore? = some store → store.OverAbstract := by
    intro branch hbranch store hstore
    obtain rfl := List.mem_singleton.mp hbranch
    rw [Lowerer.entrypointStore?_ofStore] at hstore
    obtain rfl := Option.some.inj hstore
    trivial
  have hrecovered : (behaviours tallyResolver .all tallySummary).run =
      .ok (.ok [tallyBehaviour]) := by decide +kernel
  exact ⟨hbase, hrecovered, lowered_behaviours_indistinguishable hbase hrecovered⟩

end SpecRecovery.Assembling
