import SpecRecovery.Proofs.Lowering.Branch

namespace SpecRecovery

open Machine Spec

-- The behaviour is about variables that have a slot for themselves and types that exist, and new
-- values depend on old ones only.
structure Spec.Behaviour.Declared (behaviour : Behaviour) (resolver : Resolver) : Prop where
  preconditions : ∀ value ∈ behaviour.preconditions,
    value.BuiltFrom (Lowerer.reading (Lowerer.listed resolver))
  targets : ∀ update ∈ behaviour.storageUpdates, resolver.Lists update.item
  values : ∀ update ∈ behaviour.storageUpdates,
    update.value.BuiltFrom (Lowerer.reading (Lowerer.listedBefore resolver))
  returns : ∀ value, behaviour.returns = some value →
    value.BuiltFrom (Lowerer.reading (Lowerer.listed resolver))

-- Every integer expression of a behaviour apart from those that a range fact is about.
def Spec.Behaviour.exposed (behaviour : Behaviour) : List IntExpr :=
  behaviour.preconditions.flatMap BoolExpr.exposed ++
    (behaviour.storageUpdates.flatMap (fun update => update.value.exposed) ++
      behaviour.returns.toList.flatMap IntExpr.exposed)

namespace Spec.Behaviour

variable (behaviour : Behaviour) {part : IntExpr}

theorem mem_exposed_of_precondition {value : BoolExpr} (hvalue : value ∈ behaviour.preconditions)
    (h : part ∈ value.exposed) : part ∈ behaviour.exposed :=
  List.mem_append_left _ (List.mem_flatMap.mpr ⟨value, hvalue, h⟩)

theorem mem_exposed_of_update {update : StorageUpdate} (hupdate : update ∈ behaviour.storageUpdates)
    (h : part ∈ update.value.exposed) : part ∈ behaviour.exposed :=
  List.mem_append_right _ (List.mem_append_left _ (List.mem_flatMap.mpr ⟨update, hupdate, h⟩))

theorem mem_exposed_of_returns {value : IntExpr} (hvalue : behaviour.returns = some value)
    (h : part ∈ value.exposed) : part ∈ behaviour.exposed :=
  List.mem_append_right _ (List.mem_append_right _
    (List.mem_flatMap.mpr ⟨value, Option.mem_toList.mpr hvalue, h⟩))

end Spec.Behaviour

namespace Lowerer

variable {resolver : Resolver} {lowerer : Lowerer} {assignment : Assignment}
  {valuation initial : Valuation} {updates : List StorageUpdate}

theorem sameBefore_of_apply (h : initial.apply updates = .ok valuation) :
    SameBefore valuation initial := by
  obtain ⟨values, _, h⟩ := bind_eq_ok.mp h
  obtain rfl := Except.ok.inj h
  exact ⟨rfl, rfl, rfl⟩

-- An integer that was lowered and stays in its bounds is what the machine makes of it.
theorem word_of_inBounds {vocabulary : Vocabulary} {value : IntExpr} {term : Machine.Expr}
    (hbuilt : value.BuiltFrom vocabulary) (hlower : lowerer.expr value = .ok term)
    (hbounds : ∀ part ∈ value.exposed, part.InBounds valuation) :
    value.eval valuation = .ok (value.integer valuation) ∧
      value.word valuation = Word.wrap (value.integer valuation) := by
  rw [IntExpr.exposed, List.forall_mem_cons] at hbounds
  obtain ⟨⟨integer, heval, _⟩, hinner⟩ := hbounds
  have hfaithful := value.faithful_of_inBounds vocabulary.deciding_decides
    (wellSigned_of_expr value hbuilt hlower) hinner
  obtain ⟨hword, hinteger⟩ := value.word_of_faithful hfaithful heval
  rw [hinteger]
  exact ⟨heval, hword⟩

theorem eval_of_inBounds {vocabulary : Vocabulary} {value : BoolExpr} {lowered : Cond}
    (hbuilt : value.BuiltFrom vocabulary) (hlower : lowerer.cond value = .ok lowered)
    (hbounds : ∀ part ∈ value.exposed, part.InBounds valuation) :
    value.eval valuation = .ok (value.truth valuation) :=
  value.eval_of_faithful (value.faithful_of_inBounds vocabulary.deciding_decides
    (wellSigned_of_cond value hbuilt hlower) hbounds)

-- All new values are computed from the state before, and the last one for a variable counts.
theorem postValue_of_apply (hpost : initial.post = .empty)
    (h : initial.apply updates = .ok valuation) {value : StorageUpdate → Int}
    (hvalues : ∀ update ∈ updates, update.value.eval initial = .ok (value update))
    (name : String) :
    valuation.postValue name =
      ((lastUpdate? updates name).map value).getD (valuation.preValue name) := by
  have hall : updates.mapM (fun update => do
        return (update.item.name, ← update.value.eval initial)) =
      .ok (updates.map fun update => (update.item.name, value update)) :=
    mapM_eq_map fun update hupdate => by rw [hvalues update hupdate]; rfl
  rw [Valuation.apply, hall, hpost] at h
  have hnew := congrArg Valuation.post (Except.ok.inj h)
  have hfound := Table.find?_insertAll_map Table.empty (fun update => update.item.name)
    value updates name
  rw [Table.find?_empty, Option.or_none] at hfound
  rw [Valuation.postValue, ← hnew]
  exact congrArg (·.getD (valuation.preValue name)) hfound

theorem updated_of_apply (hpost : initial.post = .empty)
    (h : initial.apply updates = .ok valuation)
    (hvalues : ∀ update ∈ updates,
      update.value.eval initial = .ok (update.value.integer valuation)) :
    Updated valuation updates := postValue_of_apply hpost h hvalues

-- New values are the same integers in the state before as in the one that also knows them, and
-- their words are what is left of these.
theorem eval_of_apply {behaviour : Behaviour} (hdeclared : behaviour.Declared resolver)
    (happly : (Valuation.ofStorage assignment resolver).apply behaviour.storageUpdates =
      .ok valuation)
    (hterms : ∀ update ∈ behaviour.storageUpdates, ∃ term, lowerer.expr update.value = .ok term)
    (hbounds : ∀ part ∈ behaviour.exposed, part.InBounds valuation) :
    ∀ update ∈ behaviour.storageUpdates,
      update.value.eval (.ofStorage assignment resolver) =
          .ok (update.value.integer valuation) ∧
        update.value.word valuation = Word.wrap (update.value.integer valuation) := by
  intro update hupdate
  obtain ⟨term, hterm⟩ := hterms update hupdate
  have hbuilt := hdeclared.values update hupdate
  obtain ⟨heval, hword⟩ := word_of_inBounds hbuilt hterm
    fun part hpart => hbounds part (behaviour.mem_exposed_of_update hupdate hpart)
  have hpre : ∀ timing item, (reading (listedBefore resolver)).atom (.entry timing item) →
      timing = .pre := fun _ _ hatom => hatom.1
  rw [← update.value.eval_congr hpre (sameBefore_of_apply happly) hbuilt]
  exact ⟨heval, hword⟩

-- What a path that stands for a behaviour does, where `initial` is the state before and `valuation`
-- also knows the new values. The preconditions decide whether the path is taken. Every variable
-- gets its new value or keeps its word, and no new value depends on another. The path returns the
-- bytes of one word, or nothing.
structure Refines (resolver : Resolver) (assignment : Assignment) (initial valuation : Valuation)
    (behaviour : Behaviour) (branch : Branch) (store : Store) : Prop where
  evaluates : ∀ value ∈ behaviour.preconditions, ∃ truth, value.eval valuation = .ok truth
  conditions : ∃ truth, allHold assignment branch.conditions = .ok truth ∧
    (truth = true ↔ ∀ value ∈ behaviour.preconditions, value.eval valuation = .ok true)
  storage : branch.entrypointStore? = some store
  stored : ∀ slot item, (slot, item) ∈ resolver.resolvable →
    store.read assignment slot = .ok (Word.wrap (valuation.postValue item.name))
  unchanged : ∀ slot item, (slot, item) ∈ resolver.resolvable →
    (∀ update ∈ behaviour.storageUpdates, update.item ≠ item) →
    store.read assignment slot = .ok (assignment.storedValue slot)
  simultaneous : ∀ slot item update, (slot, item) ∈ resolver.resolvable →
    lastUpdate? behaviour.storageUpdates item.name = some update →
    ∃ value, update.value.eval initial = .ok value ∧
      store.read assignment slot = .ok (Word.wrap value)
  returns : ∀ value, behaviour.returns = some value →
    ∃ integer, value.eval valuation = .ok integer ∧
      branch.returned.bytes assignment = .ok (Word.wrap integer).toBytes
  silent : behaviour.returns = none → branch.returned.bytes assignment = .ok []

-- If no exposed integer leaves its bounds, the path of a behaviour does to words what the behaviour
-- says about integers.
theorem lowering_refines_of_inBounds {behaviour : Behaviour} {branch : Branch}
    (hlower : behaviourBranch resolver behaviour = .ok branch)
    (hdeclared : behaviour.Declared resolver)
    (happly : (Valuation.ofStorage assignment resolver).apply behaviour.storageUpdates =
      .ok valuation)
    (hbounds : ∀ part ∈ behaviour.exposed, part.InBounds valuation) :
    ∃ store, Refines resolver assignment (.ofStorage assignment resolver) valuation behaviour
      branch store := by
  obtain ⟨store, conditions, returned, hstore, hconditions, hreturned, rfl⟩ :=
    behaviourBranch_eq_ok.mp hlower
  have hsame := sameBefore_of_apply happly
  have hvalues := eval_of_apply hdeclared happly (exists_expr_of_updates hstore) hbounds
  have hupdated := updated_of_apply rfl happly fun update hupdate => (hvalues update hupdate).1
  have hread {slot : Word} {item : StorageItem} (hitem : (slot, item) ∈ resolver.resolvable) :=
    read_updated rfl rfl hsame hstore hdeclared.targets hdeclared.values
      (fun update hupdate => (hvalues update hupdate).2) hupdated
      ((resolver.mem_resolvable_iff slot item).mp hitem)
  have hreflects := reflects_after rfl rfl hsame hstore hdeclared.targets hdeclared.values
    (fun update hupdate => (hvalues update hupdate).2) hupdated
  obtain ⟨lowered, hlowered, _⟩ := bind_eq_ok.mp hconditions
  have htruths : ∀ value ∈ behaviour.preconditions,
      value.eval valuation = .ok (value.truth valuation) := by
    intro value hvalue
    obtain ⟨cond, _, hcond⟩ := (exists_of_forall₂ (mapM_eq_ok.mp hlowered)).1 value hvalue
    exact eval_of_inBounds (hdeclared.preconditions value hvalue) hcond
      fun part hpart => hbounds part (behaviour.mem_exposed_of_precondition hvalue hpart)
  refine ⟨store, ?_⟩
  constructor
  case evaluates => exact fun value hvalue => ⟨_, htruths value hvalue⟩
  case conditions =>
    obtain ⟨truth, htruth, hiff⟩ :=
      allHold_conditions hreflects hdeclared.preconditions hconditions
    refine ⟨truth, htruth, hiff.trans (forall₂_congr fun value hvalue => ?_)⟩
    rw [htruths value hvalue, Except.ok.injEq]
  case storage => exact entrypointStore?_ofStore conditions returned store
  case stored => exact fun slot item hitem => hread hitem
  case unchanged =>
    intro slot item hitem hother
    have hresolve := (resolver.mem_resolvable_iff slot item).mp hitem
    rw [hread hitem, hupdated, lastUpdate?_eq_none hdeclared.targets hresolve hother,
      Option.map_none, Option.getD_none, storedValue_pre hsame hresolve, wrap_interpret]
  case simultaneous =>
    intro slot item update hitem hlast
    refine ⟨_, (hvalues update (mem_of_lastUpdate? hlast)).1, ?_⟩
    rw [hread hitem, hupdated item.name, hlast]
    rfl
  case returns =>
    intro value hvalue
    have hbuilt := hdeclared.returns value hvalue
    rw [hvalue] at hreturned
    have hsome := hreturned
    obtain ⟨term, hterm, _⟩ := hsome
    obtain ⟨heval, hword⟩ := word_of_inBounds hbuilt hterm
      fun part hpart => hbounds part (behaviour.mem_exposed_of_returns hvalue hpart)
    refine ⟨_, heval, ?_⟩
    rw [← hword]
    exact bytes_of_returns hreflects hbuilt hreturned
  case silent =>
    intro hnone
    rw [hnone] at hreturned
    obtain rfl : returned = Buffer.empty := hreturned
    rfl

-- An account with a balance and a signed drift.
def accountResolver : Resolver :=
  ⟨"Account", ⟨[.ofValue "balance" 0 .uint256, .ofValue "drift" 1 (.int 256)]⟩, by decide,
    by decide⟩

def accountBalance : StorageItem := ⟨"Account", "balance", .uint256⟩

def accountDrift : StorageItem := ⟨"Account", "drift", .int 256⟩

def settledBalance : IntExpr := .add (.pre accountBalance) (.var "amount" .uint256)

def settledDrift : IntExpr :=
  .arithmetic .sub (.pre accountDrift) (.var "change" (.int 256))

-- The new balance must fit, and is returned.
def accountSettle : Behaviour where
  name := "settle"
  contract := "Account"
  interface := ⟨"settle", [⟨"amount", .uint256⟩, ⟨"change", .int 256⟩]⟩
  branch := 1
  preconditions := [.inRange .uint256 (.entry .post accountBalance)]
  storageUpdates := [⟨accountBalance, settledBalance⟩, ⟨accountDrift, settledDrift⟩]
  returns := some (.entry .post accountBalance)

-- A drift of zero and a change of one, so that the drift becomes negative.
def accountAssignment : Assignment :=
  ⟨.ofList [("amount", 2), ("change", 1)], .empty, 0, .ofList [(0, 40)]⟩

-- The same state with the new values.
def accountAfter : Valuation :=
  { Valuation.ofStorage accountAssignment accountResolver with
    post := .ofList [("balance", 42), ("drift", -1)] }

theorem lowering_refines_account :
    let initial := Valuation.ofStorage accountAssignment accountResolver
    ∃ branch, behaviourBranch accountResolver accountSettle = .ok branch ∧
      accountSettle.Declared accountResolver ∧
      initial.apply accountSettle.storageUpdates = .ok accountAfter ∧
      (∀ part ∈ accountSettle.exposed, part.InBounds accountAfter) ∧
      ∃ store, Refines accountResolver accountAssignment initial accountAfter accountSettle
        branch store := by
  intro initial
  have hbalance : accountResolver.Lists accountBalance := ⟨0, by decide⟩
  have hdrift : accountResolver.Lists accountDrift := ⟨1, by decide⟩
  have hdeclared : accountSettle.Declared accountResolver := {
    preconditions := fun _ hvalue => List.mem_singleton.mp hvalue ▸ ⟨hbalance, rfl⟩
    targets := by simp [accountSettle, hbalance, hdrift]
    values := by
      rintro update (_ | ⟨_, _ | ⟨_, hnil⟩⟩)
      · exact ⟨⟨rfl, hbalance⟩, trivial⟩
      · exact ⟨⟨rfl, hdrift⟩, trivial⟩
      · exact nomatch hnil
    returns := fun _ hvalue => Option.some.inj hvalue ▸ hbalance }
  have hlower : (behaviourBranch accountResolver accountSettle).toOption.isSome = true := by
    decide +kernel
  have happly : initial.apply accountSettle.storageUpdates = .ok accountAfter := by
    decide +kernel
  have hbounds : ∀ part ∈ accountSettle.exposed, part.InBounds accountAfter := by decide +kernel
  cases hbranch : behaviourBranch accountResolver accountSettle with
  | error reason => simp [hbranch, Except.toOption] at hlower
  | ok branch =>
      exact ⟨branch, rfl, hdeclared, happly, hbounds,
        lowering_refines_of_inBounds hbranch hdeclared happly hbounds⟩

end Lowerer

end SpecRecovery
