import SpecRecovery.Assembly.Entry
import SpecRecovery.Proofs.Lifting.Meaning
import SpecRecovery.Proofs.Machine.Denotation
import SpecRecovery.Proofs.Result

namespace SpecRecovery.Assembling

open Machine Spec

variable {α β : Type}

-- Nothing failed, and there was a store wherever one had to be.
def Yields (work : Assembling α) (value : α) : Prop := work.run = .ok (.ok value)

theorem yields_pure {first value : α} : Yields (pure first) value ↔ first = value :=
  ⟨fun h => Except.ok.inj (Except.ok.inj h), fun h => h ▸ rfl⟩

theorem yields_bind {work : Assembling α} {next : α → Assembling β} {value : β} :
    Yields (work >>= next) value ↔ ∃ first, Yields work first ∧ Yields (next first) value := by
  unfold Yields
  rw [ExceptT.run_bind, bind_eq_ok]
  constructor
  · rintro ⟨first, hfirst, h⟩
    cases first with
    | error failure => exact nomatch h
    | ok first => exact ⟨first, hfirst, h⟩
  · rintro ⟨first, hfirst, h⟩
    exact ⟨.ok first, hfirst, h⟩

theorem yields_map {work : Assembling α} {change : α → β} {value : β} :
    Yields (change <$> work) value ↔ ∃ first, Yields work first ∧ change first = value := by
  rw [map_eq_pure_bind, yields_bind]
  simp only [yields_pure]

theorem yields_mapM {work : α → Assembling β} {inputs : List α} {outputs : List β} :
    Yields (inputs.mapM work) outputs ↔
      List.Forall₂ (fun input output => Yields (work input) output) inputs outputs :=
  forall₂_of_mapM Yields (fun _ _ => yields_pure) (fun _ _ _ => yields_bind)

theorem yields_lifted {result : Except LiftingError α} {value : α} :
    Yields (lifted result) value ↔ result = .ok value := by
  cases result with
  | error error => exact ⟨fun h => (nomatch Except.ok.inj h), fun h => (nomatch h)⟩
  | ok found => exact yields_pure.trans ⟨congrArg _, Except.ok.inj⟩

theorem yields_located {result : Except StorageError α} {value : α} :
    Yields (located result) value ↔ result = .ok value := by
  cases result with
  | error error => exact ⟨fun h => (nomatch Except.ok.inj h), fun h => (nomatch h)⟩
  | ok found => exact yields_pure.trans ⟨congrArg _, Except.ok.inj⟩

variable {lifter : Lifter} {branch : Branch}

theorem yields_preconditions {conditions : List Cond} {values : List BoolExpr} :
    Yields (preconditions lifter conditions) values ↔
      ∃ exprs, List.Forall₂ (fun cond expr => lifter.cond cond = .ok expr) conditions exprs ∧
        values = (exprs.flatMap fun expr => expr.canonical.conjuncts).eraseDups := by
  unfold preconditions
  rw [yields_bind]
  simp only [yields_mapM, yields_lifted, yields_pure, eq_comm]

-- The preconditions hold exactly if the conditions of the path do, whatever wraps.
theorem truth_of_preconditions {conditions : List Cond} {values : List BoolExpr}
    (h : Yields (preconditions lifter conditions) values) (assignment : Assignment) :
    (∀ value ∈ values, value.truth (.ofStorage assignment lifter.resolver) = true) ↔
      ∀ cond ∈ conditions, cond.holds assignment = .ok true := by
  obtain ⟨exprs, hexprs, rfl⟩ := yields_preconditions.mp h
  have hmem : ∀ value, value ∈ (exprs.flatMap fun expr => expr.canonical.conjuncts).eraseDups ↔
      ∃ expr ∈ exprs, value ∈ expr.canonical.conjuncts := fun value => by
    rw [List.mem_eraseDups, List.mem_flatMap]
  have hholds : ∀ cond expr, lifter.cond cond = .ok expr →
      (cond.holds assignment = .ok true ↔
        ∀ part ∈ expr.canonical.conjuncts,
          part.truth (.ofStorage assignment lifter.resolver) = true) := by
    intro cond expr hlift
    rw [BoolExpr.truth_conjuncts, BoolExpr.canonical_truth,
      Lifter.holds_of_condLifts assignment (Lifter.condLifts_of_cond hlift), Except.ok.injEq]
  constructor
  · intro hall cond hcond
    obtain ⟨expr, hexpr, hlift⟩ := (exists_of_forall₂ hexprs).1 cond hcond
    exact (hholds cond expr hlift).mpr fun part hpart =>
      hall part ((hmem part).mpr ⟨expr, hexpr, hpart⟩)
  · intro hall value hvalue
    obtain ⟨expr, hexpr, hpart⟩ := (hmem value).mp hvalue
    obtain ⟨cond, hcond, hlift⟩ := (exists_of_forall₂ hexprs).2 expr hexpr
    exact (hholds cond expr hlift).mp (hall cond hcond) value hpart

-- Conditions that were lifted can be evaluated.
theorem allHold_of_preconditions {conditions : List Cond} {values : List BoolExpr}
    (h : Yields (preconditions lifter conditions) values) (assignment : Assignment) :
    ∃ truth, allHold assignment conditions = .ok truth ∧
      (truth = true ↔
        ∀ value ∈ values, value.truth (.ofStorage assignment lifter.resolver) = true) := by
  obtain ⟨exprs, hexprs, _⟩ := yields_preconditions.mp h
  have hexists : ∀ cond ∈ conditions, ∃ truth, cond.holds assignment = .ok truth := by
    intro cond hcond
    obtain ⟨expr, _, hlift⟩ := (exists_of_forall₂ hexprs).1 cond hcond
    exact ⟨_, Lifter.holds_of_condLifts assignment (Lifter.condLifts_of_cond hlift)⟩
  obtain ⟨truth, htruth, hiff⟩ := allHold_eq_ok hexists
  exact ⟨truth, htruth, hiff.trans (truth_of_preconditions h assignment).symm⟩

-- Each update is the final write to one slot.
theorem updates_of_yields {updates : List StorageUpdate}
    (h : Yields (storageUpdates lifter branch) updates) :
    ∃ store writes, branch.entrypointStore? = some store ∧ store.writes = .ok writes ∧
      List.Forall₂ (fun entry update => lifter.resolver.resolve entry.1 = .ok update.item ∧
        lifter.expr entry.2 = .ok update.value) writes.entries updates := by
  unfold storageUpdates at h
  cases hforeign : foreignWrite? branch with
  | some address =>
      rw [hforeign] at h
      exact nomatch Except.ok.inj h
  | none =>
      rw [hforeign] at h
      cases hstore : branch.entrypointStore? with
      | none =>
          rw [hstore] at h
          exact nomatch h
      | some store =>
          rw [hstore] at h
          obtain ⟨writes, hwrites, h⟩ := yields_bind.mp h
          refine ⟨store, writes, rfl, yields_located.mp hwrites, ?_⟩
          refine (yields_mapM.mp h).imp fun entry update hupdate => ?_
          obtain ⟨item, hitem, hupdate⟩ := yields_bind.mp hupdate
          obtain ⟨value, hvalue, hupdate⟩ := yields_bind.mp hupdate
          obtain rfl := yields_pure.mp hupdate
          exact ⟨yields_located.mp hitem, yields_lifted.mp hvalue⟩

theorem returned_of_yields {value : IntExpr} (h : Yields (returned lifter branch) value) :
    ∃ word, branch.returned.wordAt? 0 = some word ∧ lifter.expr word = .ok value := by
  unfold returned at h
  split at h
  · next word hword => exact ⟨word, hword, yields_lifted.mp h⟩
  · exact nomatch Except.ok.inj h

-- What became of a path: its conditions and its writes are lifted one by one, and so is the word
-- that it returns, if it returns one.
structure Recovers (lifter : Lifter) (word : Bool) (branch : Branch) (behaviour : Behaviour) :
    Prop where
  preconditions : ∃ exprs,
    List.Forall₂ (fun cond expr => lifter.cond cond = .ok expr) branch.conditions exprs ∧
      behaviour.preconditions = (exprs.flatMap fun expr => expr.canonical.conjuncts).eraseDups
  updates : ∃ store writes, branch.entrypointStore? = some store ∧ store.writes = .ok writes ∧
    List.Forall₂ (fun entry update => lifter.resolver.resolve entry.1 = .ok update.item ∧
      lifter.expr entry.2 = .ok update.value) writes.entries behaviour.storageUpdates
  returned : word = true → ∃ term value, branch.returned.wordAt? 0 = some term ∧
    lifter.expr term = .ok value ∧ behaviour.returns = some value
  silent : word = false → behaviour.returns = none

theorem recovers_of_yields {word : Bool} {number : Nat} {recovered : Behaviour}
    (h : Yields (behaviour lifter word branch number) recovered) :
    Recovers lifter word branch recovered := by
  obtain ⟨values, hvalues, h⟩ := yields_bind.mp h
  obtain ⟨updates, hupdates, h⟩ := yields_bind.mp h
  cases word with
  | false =>
      obtain ⟨returns, hreturns, h⟩ := yields_bind.mp h
      obtain rfl := yields_pure.mp h
      exact ⟨yields_preconditions.mp hvalues, updates_of_yields hupdates, fun h => (nomatch h),
        fun _ => (yields_pure.mp hreturns).symm⟩
  | true =>
      obtain ⟨returns, hreturns, h⟩ := yields_bind.mp h
      obtain rfl := yields_pure.mp h
      obtain ⟨value, hvalue, rfl⟩ := yields_map.mp hreturns
      obtain ⟨term, hterm, hlift⟩ := returned_of_yields hvalue
      exact ⟨yields_preconditions.mp hvalues, updates_of_yields hupdates,
        fun _ => ⟨term, value, hterm, hlift, rfl⟩, fun h => nomatch h⟩

-- Everything that is recovered keeps signed values apart and stays within the vocabulary.
section Allowed

variable {vocabulary : Vocabulary} (hallows : Lifter.Allows vocabulary lifter)

include hallows

theorem wellSigned_of_preconditions
    (hfact : ∀ type value, vocabulary.fact type value → vocabulary.fact type value.canonical)
    {conditions : List Cond} {values : List BoolExpr}
    (h : Yields (preconditions lifter conditions) values) :
    ∀ value ∈ values, value.WellSigned vocabulary := by
  obtain ⟨exprs, hexprs, rfl⟩ := yields_preconditions.mp h
  intro value hvalue
  rw [List.mem_eraseDups, List.mem_flatMap] at hvalue
  obtain ⟨expr, hexpr, hpart⟩ := hvalue
  obtain ⟨cond, _, hlift⟩ := (exists_of_forall₂ hexprs).2 expr hexpr
  have hwell := (Lifter.condLifts_of_cond hlift).wellSigned hallows
  exact expr.canonical.wellSigned_conjuncts (expr.wellSigned_canonical hfact hwell) value hpart

theorem wellSigned_of_updates {writes : List (Word × Machine.Expr)} {updates : List StorageUpdate}
    (h : List.Forall₂ (fun entry update => lifter.resolver.resolve entry.1 = .ok update.item ∧
      lifter.expr entry.2 = .ok update.value) writes updates) :
    ∀ update ∈ updates, update.value.WellSigned vocabulary := by
  intro update hupdate
  obtain ⟨entry, _, _, hvalue⟩ := (exists_of_forall₂ h).2 update hupdate
  exact (Lifter.lifts_of_expr hvalue).wellSigned hallows

theorem Recovers.wellSigned_returns {word : Bool} {recovered : Behaviour}
    (h : Recovers lifter word branch recovered) {value : IntExpr}
    (hvalue : recovered.returns = some value) : value.WellSigned vocabulary := by
  cases word with
  | false => exact nomatch (h.silent rfl).symm.trans hvalue
  | true =>
      obtain ⟨_, found, _, hlift, hfound⟩ := h.returned rfl
      obtain rfl := Option.some.inj (hfound.symm.trans hvalue)
      exact (Lifter.lifts_of_expr hlift).wellSigned hallows

end Allowed

theorem length_of_returnsWord {outputs : List AbiType} {word : Bool}
    (h : returnsWord outputs = .ok word) : outputs.length = if word then 1 else 0 := by
  unfold returnsWord at h
  split at h
  · obtain rfl := Except.ok.inj h
    rfl
  · split at h
    · exact nomatch h
    · split at h
      · exact nomatch h
      · exact nomatch h
      · exact nomatch h
      · obtain rfl := Except.ok.inj h
        rfl
  · exact nomatch h

-- Paths and behaviours belong together one by one.
theorem recovers_of_behaviours {resolver : Resolver} {idioms : Idioms} {summary : MethodSummary}
    {recovered : List Behaviour}
    (h : (behaviours resolver idioms summary).run = .ok (.ok recovered)) :
    ∃ word, summary.method.outputs.length = (if word then 1 else 0) ∧
      List.Forall₂ (Recovers ⟨resolver, summary.method.interface, idioms⟩ word) summary.branches
        recovered := by
  unfold behaviours at h
  split at h
  · exact nomatch Except.ok.inj h
  · next word hword =>
      refine ⟨word, length_of_returnsWord hword, ?_⟩
      rw [← List.zipIdx_map_fst 0 summary.branches, List.forall₂_map_left_iff]
      exact (yields_mapM.mp h).imp fun _ _ hbehaviour => recovers_of_yields hbehaviour

end SpecRecovery.Assembling
