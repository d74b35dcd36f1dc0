import SpecRecovery.Proofs.Machine.Flattening
import SpecRecovery.Proofs.Machine.StoreContents
import SpecRecovery.Sampling.Solver

namespace SpecRecovery.Machine.Branch

-- What a path leaves behind at the entrypoint, where one without a store has written nothing.
def finalStore (branch : Branch) : Store := branch.entrypointStore?.getD .abstract

end SpecRecovery.Machine.Branch

namespace SpecRecovery.Sampling

open Machine Verification

-- The path that an execution takes, which is the first whose conditions all hold.
def firstTaken? (assignment : Assignment) (branches : List Branch) : Option Branch :=
  branches.find? fun branch => (allHold assignment branch.conditions).toOption == some true

-- Two paths that return the same bytes and leave the same word in every slot there is.
structure SameEffect (assignment : Assignment) (first second : Branch) : Prop where
  returned : ∃ bytes, first.returned.bytes assignment = .ok bytes ∧
    second.returned.bytes assignment = .ok bytes
  stored : ∀ slot, ∃ word, first.finalStore.read assignment slot = .ok word ∧
    second.finalStore.read assignment slot = .ok word

-- Two sides that cannot be told apart: both fail, or both take paths with the same effect.
def Alike (assignment : Assignment) (first second : List Branch) : Prop :=
  Option.Rel (SameEffect assignment) (firstTaken? assignment first)
    (firstTaken? assignment second)

variable {assignment : Assignment} {slots : List Word} {conditions : List Cond}

-- Conditions that hold may stand in front of every path, and those that fail leave none to take.
theorem outcome?_underAll_of_holds (h : allHold assignment conditions = .ok true)
    (branches : List Branch) : outcome? assignment slots (underAll conditions branches) =
      outcome? assignment slots branches := by
  induction branches with
  | nil => rfl
  | cons branch rest ih =>
      have hconditions : allHold assignment (branch.under conditions).conditions =
          allHold assignment branch.conditions := allHold_append_of_holds h branch.conditions
      have hsame : outcomeOf assignment slots (branch.under conditions) =
          outcomeOf assignment slots branch := rfl
      have hrest : outcome? assignment slots (rest.map fun branch => branch.under conditions) =
          outcome? assignment slots rest := ih
      rw [underAll, List.map_cons, outcome?, outcome?, hconditions, hsame, hrest]

-- Paths that are not taken leave the outcome to those behind them.
theorem outcome?_append_of_fails {skipped : List Branch}
    (h : ∀ branch ∈ skipped, allHold assignment branch.conditions = .ok false)
    (rest : List Branch) :
    outcome? assignment slots (skipped ++ rest) = outcome? assignment slots rest := by
  induction skipped with
  | nil => rfl
  | cons branch others ih =>
      obtain ⟨hbranch, hothers⟩ := List.forall_mem_cons.mp h
      rw [List.cons_append, outcome?, hbranch]
      exact ih hothers

theorem outcome?_of_fails {branches : List Branch}
    (h : ∀ branch ∈ branches, allHold assignment branch.conditions = .ok false) :
    outcome? assignment slots branches = .ok none := by
  rw [← branches.append_nil]
  exact outcome?_append_of_fails h []

theorem outcome?_underAll_of_fails (h : allHold assignment conditions = .ok false)
    (branches : List Branch) :
    outcome? assignment slots (underAll conditions branches) = .ok none := by
  refine outcome?_of_fails (List.forall_mem_map.mpr fun branch _ => ?_)
  exact allHold_append_of_fails h branch.conditions

section Slots

theorem mem_slotsOf {atoms : List Atom} {slot : Word} :
    slot ∈ slotsOf atoms ↔ .slot slot ∈ atoms := by
  rw [slotsOf, Table.mem_ascendingKeys, List.mem_filterMap]
  constructor
  · rintro ⟨atom, hatom, hslot⟩
    cases atom with
    | slot other => exact Option.some.inj hslot ▸ hatom
    | calldata | environment | literal | selector => exact nomatch hslot
  · exact fun h => ⟨.slot slot, h, rfl⟩

-- A slot that a store does not mention is not written, neither in its chain nor in its base.
theorem read_of_not_mentioned {slot : Word} : (store : Store) → store.LiteralKeys →
    .slot slot ∉ ofStore store →
      store.read assignment slot = .ok (store.untouched assignment slot)
  | .abstract, _, _ => rfl
  | .concrete held, _, hslot => by
      have hunheld : held.find? slot = none := by
        refine Table.find?_eq_none_of_not_mem_keys fun h => hslot ?_
        exact List.mem_map_of_mem h
      rw [Store.read, hunheld]
      rfl
  | .write key value prior, ⟨⟨written, hkey⟩, hprior⟩, hslot => by
      rw [ofStore, List.mem_append, List.mem_append, List.mem_append] at hslot
      have hother : written ≠ slot := by
        rintro rfl
        exact hslot (.inl (.inl (.inl (by simp [slotOfKey, hkey, Expr.literal?]))))
      rw [Store.untouched, ← read_of_not_mentioned prior hprior fun h => hslot (.inr h), hkey,
        Store.read]
      exact if_neg hother

-- A slot that the assignment does not fill is zero in every base that says nothing about it.
theorem untouched_of_not_assigned {slot : Word} (h : slot ∉ assignment.storage.keys) :
    (store : Store) → store.untouched assignment slot = 0
  | .abstract => by
      rw [Store.untouched, Assignment.storedValue, Table.find?_eq_none_of_not_mem_keys h]
      rfl
  | .concrete _ => rfl
  | .write _ _ prior => untouched_of_not_assigned h prior

theorem read_eq_zero {slot : Word} {store : Store} (hkeys : store.LiteralKeys)
    (hslot : .slot slot ∉ ofStore store) (hunassigned : slot ∉ assignment.storage.keys) :
    store.read assignment slot = .ok 0 := by
  rw [read_of_not_mentioned store hkeys hslot, untouched_of_not_assigned hunassigned]

end Slots

section Reading

theorem exists_pairs_of_readSlots {store : Store} {table : Table Word Word}
    (h : readSlots assignment store slots = .ok table) :
    ∃ pairs, List.Forall₂ (fun slot pair => slot = pair.1 ∧
        store.read assignment slot = .ok pair.2) slots pairs ∧ Table.ofList pairs = table := by
  obtain ⟨pairs, hpairs, hdone⟩ := bind_eq_ok.mp h
  refine ⟨pairs, (mapM_eq_ok.mp hpairs).imp ?_, Except.ok.inj hdone⟩
  intro slot pair hpair
  obtain ⟨word, hword, hpair⟩ := bind_eq_ok.mp hpair
  obtain rfl := Except.ok.inj hpair
  exact ⟨rfl, hword⟩

-- The table holds what is read in each slot.
theorem find?_of_readSlots {store : Store} {table : Table Word Word} {slot : Word}
    (h : readSlots assignment store slots = .ok table) (hslot : slot ∈ slots) :
    ∃ word, store.read assignment slot = .ok word ∧ table.find? slot = some word := by
  obtain ⟨pairs, hpairs, rfl⟩ := exists_pairs_of_readSlots h
  obtain ⟨hforth, hback⟩ := exists_of_forall₂ hpairs
  obtain ⟨pair, hpair, rfl, _⟩ := hforth slot hslot
  obtain ⟨word, hword⟩ := Table.exists_find?_ofList hpair
  obtain ⟨_, _, rfl, hread⟩ := hback _ (Table.mem_of_find?_ofList hword)
  exact ⟨word, hread, hword⟩

theorem outcomeOf_eq_ok {branch : Branch} {outcome : Outcome} :
    outcomeOf assignment slots branch = .ok outcome ↔
      branch.returned.bytes assignment = .ok outcome.returned ∧
      readSlots assignment branch.finalStore
        (slots ++ assignment.storage.keys.filter fun slot => !slots.contains slot) =
          .ok outcome.storage := by
  simp only [outcomeOf, bind_eq_ok]
  constructor
  · rintro ⟨returned, hreturned, storage, hstorage, hdone⟩
    obtain rfl := Except.ok.inj hdone
    exact ⟨hreturned, hstorage⟩
  · rintro ⟨hreturned, hstorage⟩
    exact ⟨_, hreturned, _, hstorage, rfl⟩

-- An outcome is that of the first path that is taken, and without one there is no such path.
theorem rel_firstTaken?_of_outcome? {branches : List Branch} {outcome : Option Outcome}
    (h : outcome? assignment slots branches = .ok outcome) :
    Option.Rel (fun branch left => outcomeOf assignment slots branch = .ok left)
      (firstTaken? assignment branches) outcome := by
  induction branches with
  | nil =>
      obtain rfl := Except.ok.inj h
      exact .none
  | cons branch rest ih =>
      obtain ⟨truth, htruth, h⟩ := bind_eq_ok.mp h
      rw [firstTaken?, List.find?_cons, htruth]
      cases truth with
      | false => exact ih h
      | true =>
          obtain ⟨left, hleft, rfl⟩ := map_eq_ok.mp h
          exact .some hleft

end Reading

section Comparison

variable {first second : List Branch}

-- An outcome records the slots that it is asked for and those that the assignment fills.
theorem mem_recorded {slot : Word} :
    slot ∈ slots ++ assignment.storage.keys.filter (fun other => !slots.contains other) ↔
      slot ∈ slots ∨ slot ∈ assignment.storage.keys := by
  by_cases h : slot ∈ slots <;> simp [h]

-- Slots that are recorded are compared, and all others are zero on both sides.
theorem sameEffect_of_outcomeOf_eq {one other : Branch} {outcome : Outcome}
    (hone : outcomeOf assignment slots one = .ok outcome)
    (hother : outcomeOf assignment slots other = .ok outcome)
    (hliteral : one.finalStore.LiteralKeys ∧ other.finalStore.LiteralKeys)
    (hlisted : ∀ slot, .slot slot ∈ ofStore one.finalStore ++ ofStore other.finalStore →
      slot ∈ slots) : SameEffect assignment one other := by
  obtain ⟨hbytes, hstorage⟩ := outcomeOf_eq_ok.mp hone
  obtain ⟨hbytes', hstorage'⟩ := outcomeOf_eq_ok.mp hother
  refine ⟨⟨outcome.returned, hbytes, hbytes'⟩, fun slot => ?_⟩
  by_cases hrecorded : slot ∈ slots ∨ slot ∈ assignment.storage.keys
  · obtain ⟨word, hword, hfound⟩ := find?_of_readSlots hstorage (mem_recorded.mpr hrecorded)
    obtain ⟨word', hword', hfound'⟩ := find?_of_readSlots hstorage' (mem_recorded.mpr hrecorded)
    obtain rfl := Option.some.inj (hfound.symm.trans hfound')
    exact ⟨word, hword, hword'⟩
  · obtain ⟨hunlisted, hunassigned⟩ := not_or.mp hrecorded
    have hunmentioned := mt (hlisted slot) hunlisted
    rw [List.mem_append, not_or] at hunmentioned
    exact ⟨0, read_eq_zero hliteral.1 hunmentioned.1 hunassigned,
      read_eq_zero hliteral.2 hunmentioned.2 hunassigned⟩

theorem SameEffect.outcomeOf_eq {one other : Branch} (h : SameEffect assignment one other) :
    outcomeOf assignment slots one = outcomeOf assignment slots other := by
  obtain ⟨bytes, hone, hother⟩ := h.returned
  have hreads : ∀ slot, one.finalStore.read assignment slot =
      other.finalStore.read assignment slot := by
    intro slot
    obtain ⟨word, hword, hword'⟩ := h.stored slot
    rw [hword, hword']
  simp only [Branch.finalStore] at hreads
  simp only [outcomeOf, readSlots, hone, hother, hreads]

-- What a path leaves at the entrypoint is among all that it mentions.
theorem mem_ofBranch_of_finalStore {branch : Branch} {atom : Atom}
    (h : atom ∈ ofStore branch.finalStore) : atom ∈ ofBranch branch := by
  rw [Branch.finalStore] at h
  cases hstore : branch.entrypointStore? with
  | none =>
      rw [hstore] at h
      exact nomatch h
  | some store =>
      rw [hstore] at h
      have hvalue : store ∈ branch.storage.values := Table.mem_values_of_find? hstore
      exact List.mem_append_right _ (List.mem_flatMap.mpr ⟨store, hvalue, h⟩)

-- What either side mentions is enough to compare them in every slot.
theorem eq_iff_alike {expected actual : Option Outcome}
    (hliteral : ∀ branch ∈ first ++ second, branch.finalStore.LiteralKeys)
    (hslots : slots = slotsOf ((first ++ second).flatMap ofBranch))
    (hexpected : outcome? assignment slots first = .ok expected)
    (hactual : outcome? assignment slots second = .ok actual) :
    expected = actual ↔ Alike assignment first second := by
  have hlisted : ∀ branch ∈ first ++ second, ∀ slot,
      .slot slot ∈ ofStore branch.finalStore → slot ∈ slots := by
    intro branch hbranch slot hslot
    rw [hslots, mem_slotsOf, List.mem_flatMap]
    exact ⟨branch, hbranch, mem_ofBranch_of_finalStore hslot⟩
  have hone := rel_firstTaken?_of_outcome? hexpected
  have hother := rel_firstTaken?_of_outcome? hactual
  unfold Alike
  generalize hfirst : firstTaken? assignment first = taken at hone
  generalize hsecond : firstTaken? assignment second = taken' at hother
  cases hone with
  | none =>
      cases hother with
      | none => exact iff_of_true rfl .none
      | some => exact iff_of_false nofun nofun
  | @some one left hleft =>
      cases hother with
      | none => exact iff_of_false nofun nofun
      | @some other right hright =>
          have hone : one ∈ first ++ second :=
            List.mem_append_left _ (List.mem_of_find?_eq_some hfirst)
          have hother : other ∈ first ++ second :=
            List.mem_append_right _ (List.mem_of_find?_eq_some hsecond)
          rw [Option.some.injEq, Option.rel_some_some]
          constructor
          · rintro rfl
            have hkeys := And.intro (hliteral one hone) (hliteral other hother)
            refine sameEffect_of_outcomeOf_eq hleft hright hkeys fun slot hslot => ?_
            rcases List.mem_append.mp hslot with h | h
            · exact hlisted one hone slot h
            · exact hlisted other hother slot h
          · intro h
            rw [h.outcomeOf_eq] at hleft
            exact Except.ok.inj (hleft.symm.trans hright)

end Comparison

end SpecRecovery.Sampling
