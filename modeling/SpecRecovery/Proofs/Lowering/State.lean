import Mathlib.Data.List.Find
import SpecRecovery.Proofs.Lowering.Meaning
import SpecRecovery.Proofs.Machine.StoreContents
import SpecRecovery.Proofs.Spec.Storage

namespace SpecRecovery.Lowerer

open Machine Spec

-- The variables that are read before a transition.
def listedBefore (resolver : Resolver) (timing : Timing) (item : StorageItem) : Prop :=
  timing = .pre ∧ resolver.Lists item

-- The variables that are read before or after it.
def listed (resolver : Resolver) (_ : Timing) (item : StorageItem) : Prop := resolver.Lists item

variable {lowerer : Lowerer} {resolver : Resolver} {assignment : Assignment}
  {valuation : Valuation} {item : StorageItem} {slot : Word}

theorem slot_eq_ok (h : lowerer.slot item = .ok slot) :
    lowerer.resolver.slotOf? item.name = some slot := by
  unfold Lowerer.slot at h
  split at h
  · cases h
  · split at h
    · next found hfound => exact Except.ok.inj h ▸ hfound
    · cases h

theorem slot_of_resolve (h : lowerer.resolver.resolve slot = .ok item) :
    lowerer.slot item = .ok slot := by
  have hcontract := Resolver.contract_of_resolve h
  rw [Lowerer.slot, if_neg (not_not.mpr hcontract), Resolver.slotOf?_of_resolve h]
  rfl

theorem read_eq_ok {timing : Timing} {term : Machine.Expr}
    (h : lowerer.read timing item = .ok term) :
    ∃ slot store, lowerer.resolver.slotOf? item.name = some slot ∧
      lowerer.store timing = .ok store ∧ term = .sload (.lit slot) store := by
  obtain ⟨slot, hslot, h⟩ := bind_eq_ok.mp h
  obtain ⟨store, hstore, h⟩ := bind_eq_ok.mp h
  exact ⟨slot, store, slot_eq_ok hslot, hstore, (Except.ok.inj h).symm⟩

theorem eval_sload (slot : Word) (store : Store) :
    (Machine.Expr.sload (.lit slot) store).eval assignment = store.read assignment slot := by
  rw [Machine.Expr.eval, Machine.Expr.eval]
  rfl

theorem storedValue_pre (hsame : SameBefore valuation (.ofStorage assignment resolver))
    (h : resolver.resolve slot = .ok item) :
    valuation.preValue item.name = interpret (assignment.storedValue slot) item.type := by
  rw [← preValue_ofStorage assignment h, Valuation.preValue, Valuation.preValue, hsame.2.2]

-- Over the storage before the transition, nothing but the assignment counts.
theorem reflects_unchanged (hresolver : lowerer.resolver = resolver)
    (hpre : lowerer.pre.Unchanged assignment)
    (hsame : SameBefore valuation (.ofStorage assignment resolver)) :
    lowerer.Reflects assignment valuation (listedBefore resolver) where
  calldata name := by rw [Valuation.variableWord, hsame.1]; rfl
  environment value := by rw [Valuation.environmentWord, hsame.2.1]; rfl
  reads timing item term hknown hread := by
    obtain ⟨rfl, hlists⟩ := hknown
    obtain ⟨slot, hslot⟩ := Resolver.lists_iff.mp hlists
    obtain ⟨found, store, hfound, hstore, rfl⟩ := read_eq_ok hread
    rw [hresolver, Resolver.slotOf?_of_resolve hslot] at hfound
    obtain rfl := Option.some.inj hfound
    obtain rfl := Except.ok.inj hstore
    rw [eval_sload, hpre, Valuation.storedValue, storedValue_pre hsame hslot, wrap_interpret]
  typed timing item hknown _ := by
    obtain ⟨rfl, hlists⟩ := hknown
    obtain ⟨slot, hslot⟩ := Resolver.lists_iff.mp hlists
    exact ⟨_, storedValue_pre hsame hslot⟩
  replaced item update hknown _ := nomatch hknown.1

theorem reflects_before (hresolver : lowerer.resolver = resolver) (hpre : lowerer.pre = .abstract)
    (hsame : SameBefore valuation (.ofStorage assignment resolver)) :
    lowerer.Reflects assignment valuation (listedBefore resolver) :=
  reflects_unchanged hresolver (hpre ▸ Store.unchanged_abstract) hsame

theorem reflects_ofStorage (resolver : Resolver) (assignment : Assignment) :
    (before resolver .abstract).Reflects assignment (.ofStorage assignment resolver)
      (listedBefore resolver) :=
  reflects_before rfl rfl ⟨rfl, rfl, rfl⟩

-- The last update of a name.
def lastUpdate? (updates : List StorageUpdate) (name : String) : Option StorageUpdate :=
  updates.reverse.find? fun update => update.item.name == name

-- The last update of a slot.
def lastWrite? (resolver : Resolver) (updates : List StorageUpdate) (slot : Word) :
    Option StorageUpdate :=
  updates.reverse.find? fun update => resolver.slotOf? update.item.name == some slot

theorem lastWrite?_eq_some {updates : List StorageUpdate} {update : StorageUpdate}
    (h : lastWrite? resolver updates slot = some update) :
    update ∈ updates ∧ resolver.slotOf? update.item.name = some slot := by
  unfold lastWrite? at h
  have hslot := List.find?_some h
  rw [beq_iff_eq] at hslot
  exact ⟨List.mem_reverse.mp (List.mem_of_find?_eq_some h), hslot⟩

theorem updates_cons_eq_ok {update : StorageUpdate} {rest : List StorageUpdate}
    {base store : Store} :
    lowerer.updates base (update :: rest) = .ok store ↔
      ∃ slot term, lowerer.slot update.item = .ok slot ∧ lowerer.expr update.value = .ok term ∧
        lowerer.updates (.write (.lit slot) term base) rest = .ok store := by
  unfold Lowerer.updates
  rw [List.foldlM_cons]
  constructor
  · intro h
    obtain ⟨next, hnext, h⟩ := bind_eq_ok.mp h
    obtain ⟨slot, hslot, hnext⟩ := bind_eq_ok.mp hnext
    obtain ⟨term, hterm, hnext⟩ := bind_eq_ok.mp hnext
    obtain rfl := Except.ok.inj hnext
    exact ⟨slot, term, hslot, hterm, h⟩
  · rintro ⟨slot, term, hslot, hterm, h⟩
    rw [hslot, hterm]
    exact h

-- A chain of writes holds what was written last, and below it what the base holds.
theorem read_of_updates {updates : List StorageUpdate} {base store : Store}
    (h : lowerer.updates base updates = .ok store) (word : StorageUpdate → Word)
    (hword : ∀ update ∈ updates, ∀ term, lowerer.expr update.value = .ok term →
      term.eval assignment = .ok (word update)) (slot : Word) :
    store.read assignment slot =
      ((lastWrite? lowerer.resolver updates slot).map fun update => .ok (word update)).getD
        (base.read assignment slot) := by
  induction updates generalizing base with
  | nil =>
      obtain rfl := Except.ok.inj h
      rfl
  | cons update rest ih =>
      obtain ⟨written, term, hwritten, hterm, h⟩ := updates_cons_eq_ok.mp h
      have heval := hword update List.mem_cons_self term hterm
      rw [ih h fun other hother => hword other (List.mem_cons_of_mem _ hother)]
      unfold lastWrite?
      rw [List.reverse_cons, List.find?_append]
      cases rest.reverse.find? fun other =>
          lowerer.resolver.slotOf? other.item.name == some slot with
      | some other => rfl
      | none =>
          rw [Option.none_or, List.find?_singleton, slot_eq_ok hwritten, Store.read, heval,
            Machine.Expr.eval]
          by_cases hsame : written = slot
          · simp [hsame, bind, Except.bind, pure, Except.pure]
          · simp [hsame, bind, Except.bind, pure, Except.pure]

-- Variables and their slots determine each other.
theorem lastWrite?_eq_lastUpdate? {updates : List StorageUpdate}
    (hlists : ∀ update ∈ updates, resolver.Lists update.item)
    (h : resolver.resolve slot = .ok item) :
    lastWrite? resolver updates slot = lastUpdate? updates item.name := by
  unfold lastWrite? lastUpdate?
  apply List.find?_congr
  intro update hupdate
  obtain ⟨other, hother⟩ := Resolver.lists_iff.mp (hlists update (List.mem_reverse.mp hupdate))
  rw [Bool.eq_iff_iff, beq_iff_eq, beq_iff_eq, Resolver.slotOf?_of_resolve hother]
  constructor
  · intro hsame
    obtain rfl := Option.some.inj hsame
    rw [Except.ok.inj (hother.symm.trans h)]
  · intro hname
    rw [Resolver.resolve_injective hother h hname]

-- A variable that no update is about is not updated under its name either.
theorem lastUpdate?_eq_none {updates : List StorageUpdate}
    (hlists : ∀ update ∈ updates, resolver.Lists update.item)
    (h : resolver.resolve slot = .ok item) (hother : ∀ update ∈ updates, update.item ≠ item) :
    lastUpdate? updates item.name = none := by
  refine List.find?_eq_none.mpr fun update hupdate hname => ?_
  obtain ⟨found, hfound⟩ := Resolver.lists_iff.mp (hlists update (List.mem_reverse.mp hupdate))
  obtain rfl := Resolver.resolve_injective hfound h (beq_iff_eq.mp hname)
  exact hother update (List.mem_reverse.mp hupdate) (Except.ok.inj (hfound.symm.trans h))

-- What the updates make of a variable, or its old value where they say nothing.
def Updated (valuation : Valuation) (updates : List StorageUpdate) : Prop :=
  ∀ name, valuation.postValue name =
    ((lastUpdate? updates name).map fun update => update.value.integer valuation).getD
      (valuation.preValue name)

-- Values that are collected by name are those of the last updates.
theorem find?_values (updates : List StorageUpdate) (name : String) :
    (Table.ofList (updates.map fun update => (update.item.name, update.value))).find? name =
      (lastUpdate? updates name).map StorageUpdate.value := by
  have hfound := Table.find?_insertAll_map Table.empty (fun update => update.item.name)
    StorageUpdate.value updates name
  rwa [Table.find?_empty, Option.or_none] at hfound

theorem update?_withPost (initial : Lowerer) (post : Store) (updates : List StorageUpdate)
    (name : String) :
    (initial.withPost post updates).update? name =
      (lastUpdate? updates name).map fun update => initial.lowerUpdate update.value := by
  unfold withPost
  dsimp only
  rw [find?_values, Option.map_map]
  rfl

theorem replacement?_of_before {value : IntExpr}
    (hbuilt : value.BuiltFrom (reading (listedBefore resolver))) :
    lowerer.replacement? value = none := by
  cases value with
  | entry timing item =>
      obtain ⟨rfl, _⟩ := hbuilt
      rfl
  | _ => rfl

theorem standsFor_lowerUpdate
    (hreflects : lowerer.Reflects assignment valuation (listedBefore resolver))
    {value : IntExpr} (hbuilt : value.BuiltFrom (reading (listedBefore resolver))) :
    (lowerer.lowerUpdate value).StandsFor assignment (value.integer valuation) where
  operand _ hoperand hterm :=
    ⟨_, eval_of_expr hreflects value hbuilt hterm,
      integer_of_isPlainOperand hreflects hoperand (replacement?_of_before hbuilt) hbuilt hterm⟩
  range _ _ _ hsize hwidth hcond := denotes_of_range hreflects hsize hwidth value hbuilt hcond

theorem mem_of_lastUpdate? {updates : List StorageUpdate} {name : String} {update : StorageUpdate}
    (h : lastUpdate? updates name = some update) : update ∈ updates :=
  List.mem_reverse.mp (List.mem_of_find?_eq_some h)

theorem name_of_lastUpdate? {updates : List StorageUpdate} {name : String} {update : StorageUpdate}
    (h : lastUpdate? updates name = some update) : update.item.name = name := by
  unfold lastUpdate? at h
  have hname := List.find?_some h
  rwa [beq_iff_eq] at hname

-- Over both storages the machine finds what is known of the state after, provided that the storage
-- after holds it and that range facts about new values are about what these are.
theorem reflects_withPost {known : Timing → StorageItem → Prop} {updates : List StorageUpdate}
    {post : Store} (hresolver : lowerer.resolver = resolver) (hpre : lowerer.pre = .abstract)
    (hsame : SameBefore valuation (.ofStorage assignment resolver))
    (hlisted : ∀ timing item, known timing item → resolver.Lists item)
    (hread : ∀ slot item, known .post item → resolver.resolve slot = .ok item →
      post.read assignment slot = .ok (Word.wrap (valuation.postValue item.name)))
    (hkept : ∀ item, known .post item → lastUpdate? updates item.name = none →
      valuation.postValue item.name = valuation.preValue item.name)
    (hstands : ∀ item update, known .post item → lastUpdate? updates item.name = some update →
      (lowerer.lowerUpdate update.value).StandsFor assignment (valuation.postValue item.name)) :
    (lowerer.withPost post updates).Reflects assignment valuation known := by
  have hbefore : (lowerer.withPost post updates).Reflects assignment valuation
      (listedBefore resolver) := reflects_before hresolver hpre hsame
  refine ⟨hbefore.calldata, hbefore.environment, ?_, ?_, ?_⟩
  · intro timing item term hknown hterm
    cases timing with
    | pre => exact hbefore.reads .pre item term ⟨rfl, hlisted _ item hknown⟩ hterm
    | post =>
        obtain ⟨slot, hslot⟩ := Resolver.lists_iff.mp (hlisted _ item hknown)
        obtain ⟨found, store, hfound, hstore, rfl⟩ := read_eq_ok hterm
        have hresolve : lowerer.resolver.slotOf? item.name = some found := hfound
        rw [hresolver, Resolver.slotOf?_of_resolve hslot] at hresolve
        obtain rfl := Option.some.inj hresolve
        obtain rfl := Except.ok.inj hstore
        rw [eval_sload, hread _ item hknown hslot]
        rfl
  · intro timing item hknown hreplaced
    cases timing with
    | pre => exact hbefore.typed .pre item ⟨rfl, hlisted _ item hknown⟩ hreplaced
    | post =>
        obtain ⟨slot, hslot⟩ := Resolver.lists_iff.mp (hlisted _ item hknown)
        rw [replacement?, update?_withPost, Option.map_eq_none_iff] at hreplaced
        refine ⟨assignment.storedValue slot, ?_⟩
        rw [Valuation.storedValue, hkept item hknown hreplaced, ← storedValue_pre hsame hslot]
  · intro item update hknown hupdate
    rw [update?_withPost] at hupdate
    obtain ⟨last, hlast, rfl⟩ := Option.map_eq_some_iff.mp hupdate
    exact hstands item last hknown hlast

section After

variable {updates : List StorageUpdate} {store : Store}
  (hresolver : lowerer.resolver = resolver) (hpre : lowerer.pre = .abstract)
  (hsame : SameBefore valuation (.ofStorage assignment resolver))
  (hstore : lowerer.updates .abstract updates = .ok store)
  (hlists : ∀ update ∈ updates, resolver.Lists update.item)
  (hbuilt : ∀ update ∈ updates, update.value.BuiltFrom (reading (listedBefore resolver)))
  (hwords : ∀ update ∈ updates,
    update.value.word valuation = Word.wrap (update.value.integer valuation))
  (hupdated : Updated valuation updates)

include hresolver hpre hsame hstore hlists hbuilt hwords hupdated

-- The storage that the updates leave behind holds the new value of every variable.
theorem read_updated (h : resolver.resolve slot = .ok item) :
    store.read assignment slot = .ok (Word.wrap (valuation.postValue item.name)) := by
  have hreflects := reflects_before hresolver hpre hsame
  rw [read_of_updates hstore (fun update => update.value.word valuation)
    fun update hupdate _ => eval_of_expr hreflects update.value (hbuilt update hupdate)]
  rw [hresolver, lastWrite?_eq_lastUpdate? hlists h, hupdated]
  cases hlast : lastUpdate? updates item.name with
  | none =>
      rw [Option.map_none, Option.map_none, Option.getD_none, Option.getD_none, Store.read,
        storedValue_pre hsame h, wrap_interpret]
      rfl
  | some update => exact congrArg Except.ok (hwords update (mem_of_lastUpdate? hlast))

-- After the transition the machine finds the new values, and range facts are about these.
theorem reflects_after :
    (lowerer.withPost store updates).Reflects assignment valuation (listed resolver) := by
  refine reflects_withPost hresolver hpre hsame (fun _ _ hlisted => hlisted)
    (fun slot item _ hslot => ?_) (fun item _ hlast => ?_) fun item update _ hlast => ?_
  · exact read_updated hresolver hpre hsame hstore hlists hbuilt hwords hupdated hslot
  · rw [hupdated, hlast]
    rfl
  · rw [hupdated, hlast]
    exact standsFor_lowerUpdate (reflects_before hresolver hpre hsame)
      (hbuilt update (mem_of_lastUpdate? hlast))

end After

end SpecRecovery.Lowerer
