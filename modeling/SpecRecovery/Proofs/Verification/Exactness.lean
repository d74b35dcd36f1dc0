import SpecRecovery.Proofs.Enrichment.Facts
import SpecRecovery.Proofs.Lowering.Branch
import SpecRecovery.Proofs.Sampling.Outcome
import SpecRecovery.Proofs.Spec.Storage
import SpecRecovery.Proofs.Verification.Assumptions

namespace SpecRecovery.Verification

open Machine Spec Sampling

-- A call of the method in which every word stands for a value of its declared type: those of the
-- arguments, the addresses in the environment and the stored variables with a slot for themselves.
structure WellTypedCall (resolver : Resolver) (method : Method) (assignment : Assignment) :
    Prop where
  selector : assignment.selector = method.selector.toWord
  arguments : ∀ argument ∈ method.interface.arguments, ∀ low high,
    argument.type.integerRange = some (low, high) →
      low ≤ interpret (assignment.variableValue argument.name) argument.type ∧
        interpret (assignment.variableValue argument.name) argument.type < high
  addresses : ∀ value : Environment, value.type = .address →
    (assignment.environmentValue value).toNat < 2 ^ 160
  stored : ∀ slot item, (slot, item) ∈ resolver.resolvable → ∀ low high,
    item.type.integerRange = some (low, high) →
      low ≤ interpret (assignment.storedValue slot) item.type ∧
        interpret (assignment.storedValue slot) item.type < high

variable {resolver : Resolver} {method : Method} {assignment : Assignment}
  {interface : Interface} {typed : List Cond}

theorem holds_environment_iff (value : Environment) (word : Word) :
    value.type.holds word.toInteger = true ↔ (value.type = .address → word.toNat < 2 ^ 160) := by
  have hword := word.isLt
  by_cases haddress : value.type = .address
  · have hrange : value.type.integerRange = some (0, 2 ^ 160) := by
      rw [haddress]
      rfl
    rw [AbiType.holds_of_range hrange, Word.toInteger, forall_prop_of_true haddress]
    omega
  · have htype : value.type = .uint256 := by
      cases value <;> simp_all [Environment.type]
    have hrange : value.type.integerRange = some (0, 2 ^ 256) := by
      rw [htype]
      rfl
    rw [AbiType.holds_of_range hrange, Word.toInteger, forall_prop_of_false haddress, iff_true]
    omega

theorem wellTypedCall_iff : WellTypedCall resolver method assignment ↔
    assignment.selector = method.selector.toWord ∧
      (Valuation.ofStorage assignment resolver).WellTyped resolver method.interface := by
  constructor
  · intro h
    refine ⟨h.selector, ?_, fun value => ?_, fun slot item hlisted hrange => ?_⟩
    · intro argument hargument hrange
      obtain ⟨⟨low, high⟩, hrange⟩ := Option.isSome_iff_exists.mp hrange
      exact (AbiType.holds_of_range hrange _).mpr (h.arguments argument hargument low high hrange)
    · exact (holds_environment_iff value _).mpr (h.addresses value)
    · obtain ⟨⟨low, high⟩, hrange⟩ := Option.isSome_iff_exists.mp hrange
      rw [preValue_ofStorage assignment ((resolver.mem_resolvable_iff slot item).mp hlisted)]
      exact (AbiType.holds_of_range hrange _).mpr (h.stored slot item hlisted low high hrange)
  · rintro ⟨hselector, h⟩
    refine ⟨hselector, ?_, fun value => ?_, fun slot item hlisted low high hrange => ?_⟩
    · intro argument hargument low high hrange
      have hholds := h.arguments argument hargument (Option.isSome_of_eq_some hrange)
      exact (AbiType.holds_of_range hrange _).mp hholds
    · exact (holds_environment_iff value _).mp (h.environment value)
    · have hholds := h.stored slot item hlisted (Option.isSome_of_eq_some hrange)
      rw [preValue_ofStorage assignment ((resolver.mem_resolvable_iff slot item).mp hlisted)]
        at hholds
      exact (AbiType.holds_of_range hrange _).mp hholds

-- The facts about what is passed to a transition.
section Inputs

variable {valuation : Valuation}

theorem builtFrom_of_mem_inputs {known : Timing → StorageItem → Prop}
    (harguments : ∀ argument ∈ interface.arguments, argument.type.isWellSized = true)
    {fact : BoolExpr}
    (h : fact ∈ argumentFacts interface ++ Environment.all.map environmentFact) :
    fact.BuiltFrom (Lowerer.reading known) := by
  rcases List.mem_append.mp h with h | h
  · obtain ⟨argument, hargument, _, rfl⟩ := mem_argumentFacts.mp h
    exact ⟨trivial, harguments argument hargument⟩
  · obtain ⟨value, _, rfl⟩ := List.mem_map.mp h
    have hsize : value.type.isWellSized = true := by cases value <;> rfl
    exact ⟨trivial, hsize⟩

theorem truth_inputs_iff :
    (∀ fact ∈ argumentFacts interface ++ Environment.all.map environmentFact,
      fact.truth valuation = true) ↔
      (∀ argument ∈ interface.arguments, argument.type.integerRange.isSome = true →
        argument.type.holds
          (interpret (valuation.variableWord argument.name) argument.type) = true) ∧
      ∀ value : Environment,
        value.type.holds (valuation.environmentWord value).toInteger = true := by
  simp only [List.forall_mem_append, List.forall_mem_map]
  constructor
  · rintro ⟨harguments, henvironment⟩
    refine ⟨fun argument hargument hrange => ?_, fun value => ?_⟩
    · exact harguments _ (mem_argumentFacts.mpr ⟨argument, hargument, hrange, rfl⟩)
    · exact henvironment value (by cases value <;> decide)
  · rintro ⟨harguments, henvironment⟩
    refine ⟨fun fact hfact => ?_, fun value _ => henvironment value⟩
    obtain ⟨argument, hargument, hrange, rfl⟩ := mem_argumentFacts.mp hfact
    exact harguments argument hargument hrange

end Inputs

-- Inputs of a creation in which every word stands for a value of its declared type.
structure WellTypedCreation (interface : Interface) (assignment : Assignment) : Prop where
  arguments : ∀ argument ∈ interface.arguments, argument.type.integerRange.isSome = true →
    argument.type.holds (interpret (assignment.variableValue argument.name) argument.type) = true
  environment : ∀ value : Environment,
    value.type.holds (assignment.environmentValue value).toInteger = true

-- What is assumed about a creation holds of well typed inputs.
theorem allHold_of_wellTypedCreation
    (harguments : ∀ argument ∈ interface.arguments, argument.type.isWellSized = true)
    (htyped : assumptions (.before resolver .empty) interface [] = .ok typed)
    (h : WellTypedCreation interface assignment) : allHold assignment typed = .ok true := by
  have hreflects : (Lowerer.before resolver .empty).Reflects assignment
      (.ofStorage assignment resolver) (fun _ _ => False) :=
    ⟨fun _ => rfl, fun _ => rfl, nofun, nofun, nofun⟩
  rw [assumptions, List.map_nil, List.append_nil] at htyped
  obtain ⟨truth, hholds, htruth⟩ := Lowerer.allHold_conditions hreflects
    (fun _ hfact => builtFrom_of_mem_inputs harguments hfact) htyped
  rw [truth_inputs_iff] at htruth
  rwa [htruth.mpr ⟨h.arguments, h.environment⟩] at hholds

-- The facts that are assumed are about atoms of types that exist.
theorem builtFrom_of_mem_assumed
    (harguments : ∀ argument ∈ interface.arguments, argument.type.isWellSized = true)
    (hstored : ∀ slot item, (slot, item) ∈ resolver.resolvable → item.type.isWellSized = true)
    {fact : BoolExpr} (h : fact ∈ assumed resolver interface) :
    fact.BuiltFrom (Lowerer.reading (Lowerer.listedBefore resolver)) := by
  rcases List.mem_append.mp h with h | h
  · exact builtFrom_of_mem_inputs harguments h
  · obtain ⟨item, hitem, rfl⟩ := List.mem_map.mp h
    obtain ⟨⟨slot, item⟩, hlisted, rfl⟩ := List.mem_map.mp hitem
    exact ⟨⟨rfl, slot, hlisted⟩, hstored slot item hlisted⟩

-- All that is assumed is true exactly if the inputs are well typed. A byte string has no range fact
-- that could be true.
theorem truth_assumed_iff {valuation : Valuation} (hintegers : resolver.HoldsIntegers) :
    (∀ fact ∈ assumed resolver interface, fact.truth valuation = true) ↔
      valuation.WellTyped resolver interface := by
  rw [assumed, List.forall_mem_append, truth_inputs_iff]
  simp only [List.forall_mem_map]
  constructor
  · rintro ⟨⟨harguments, henvironment⟩, hstored⟩
    exact ⟨harguments, henvironment, fun slot item hlisted _ => hstored (slot, item) hlisted⟩
  · intro h
    refine ⟨⟨h.arguments, h.environment⟩, fun entry hlisted => ?_⟩
    obtain ⟨slot, item⟩ := entry
    obtain ⟨_, _, _, _, _, helementary⟩ :=
      Resolver.exists_of_resolve ((resolver.mem_resolvable_iff slot item).mp hlisted)
    have hrange : item.type.integerRange.isSome = true := by
      rw [AbiType.integerRange_isSome_iff]
      rcases AbiType.width_of_isElementary helementary with ⟨width, hwidth⟩ | ⟨length, htype, _⟩
      · exact Option.isSome_of_eq_some hwidth
      · exact absurd htype (hintegers slot item length hlisted)
    exact h.stored slot item hlisted hrange

-- The conditions that both sides of the query about a method stand under always evaluate, and they
-- hold exactly in the well typed calls of the method.
theorem exists_allHold_assumed
    (harguments : ∀ argument ∈ method.interface.arguments, argument.type.isWellSized = true)
    (hstored : ∀ slot item, (slot, item) ∈ resolver.resolvable → item.type.isWellSized = true)
    (htyped : assumptions (.before resolver .abstract) method.interface
      (resolver.resolvable.map Prod.snd) = .ok typed) (assignment : Assignment) :
    ∃ truth, allHold assignment (typed ++ [.eqWords .selector (.lit method.selector.toWord)]) =
      .ok truth ∧ (truth = true ↔ WellTypedCall resolver method assignment) := by
  have hintegers := (exists_assumptions_iff .abstract method.interface).mp ⟨typed, htyped⟩
  have hreflects : (Lowerer.before resolver .abstract).Reflects assignment
      (.ofStorage assignment resolver) (Lowerer.listedBefore resolver) :=
    Lowerer.reflects_before rfl rfl ⟨rfl, rfl, rfl⟩
  obtain ⟨truth, hholds, htruth⟩ := Lowerer.allHold_conditions hreflects
    (fun _ hfact => builtFrom_of_mem_assumed harguments hstored hfact) htyped
  rw [truth_assumed_iff hintegers] at htruth
  have hselector : (Cond.eqWords .selector (.lit method.selector.toWord)).holds assignment =
      .ok (assignment.selector == method.selector.toWord) := rfl
  rw [wellTypedCall_iff]
  cases truth with
  | false =>
      refine ⟨false, allHold_append_of_fails hholds _, ?_⟩
      simpa using fun _ => htruth
  | true =>
      refine ⟨assignment.selector == method.selector.toWord, ?_, ?_⟩
      · rw [allHold_append_of_holds hholds, allHold, hselector]
        cases assignment.selector == method.selector.toWord <;> rfl
      · rw [beq_iff_eq, ← htruth, and_iff_left rfl]

-- Prefixed to both sides of a query, conditions with a truth leave the differences where they hold
-- and no others.
theorem outcome?_underAll_ne_iff {conditions : List Cond} {truth : Bool}
    (h : allHold assignment conditions = .ok truth) (slots : List Word)
    (specified explored : List Branch) :
    outcome? assignment slots (underAll conditions specified) ≠
        outcome? assignment slots (underAll conditions explored) ↔
      truth = true ∧ outcome? assignment slots specified ≠ outcome? assignment slots explored := by
  cases truth with
  | false => simp [outcome?_underAll_of_fails h]
  | true => simp [outcome?_underAll_of_holds h]

-- The query about a method asks for the differences in well typed calls of the method, and for all
-- of these: on both sides the same conditions stand in front, which always have a truth, and hold
-- in these calls alone.
theorem query_exact_in_wellTyped_calls {specification : Specification} {specified : List Branch}
    (harguments : ∀ argument ∈ method.interface.arguments, argument.type.isWellSized = true)
    (hstored : ∀ slot item, (slot, item) ∈ resolver.resolvable → item.type.isWellSized = true)
    (hspecified : (specification.behavioursOf method.signature).mapM
      (Lowerer.behaviourBranch resolver) = .ok specified)
    (htyped : assumptions (.before resolver .abstract) method.interface
      (resolver.resolvable.map Prod.snd) = .ok typed) (explored : List Branch) :
    let assumed := typed ++ [.eqWords .selector (.lit method.selector.toWord)]
    methodQuery resolver ⟨method, explored⟩ specification =
        .ok ⟨underAll assumed specified, underAll assumed explored⟩ ∧
      ∀ assignment,
        (∃ truth, allHold assignment assumed = .ok truth) ∧
        (allHold assignment assumed = .ok true ↔ WellTypedCall resolver method assignment) ∧
        ∀ slots, outcome? assignment slots (underAll assumed specified) ≠
            outcome? assignment slots (underAll assumed explored) ↔
          WellTypedCall resolver method assignment ∧
            outcome? assignment slots specified ≠ outcome? assignment slots explored := by
  refine ⟨methodQuery_eq_ok.mpr ⟨specified, typed, hspecified, htyped, rfl⟩, fun assignment => ?_⟩
  obtain ⟨truth, hholds, htruth⟩ := exists_allHold_assumed harguments hstored htyped assignment
  refine ⟨⟨truth, hholds⟩, ?_, fun slots => ?_⟩
  · rw [hholds, Except.ok.injEq, htruth]
  · rw [← htruth]
    exact outcome?_underAll_ne_iff hholds slots specified explored

-- A dial that is turned to a signed position, where the bytecode turns it the other way.
def dialItem : StorageItem := ⟨"Dial", "position", .int 8⟩

def dialResolver : Resolver :=
  ⟨"Dial", ⟨[.ofValue "position" 0 (.int 8)]⟩, by decide, by decide⟩

def dialTurn : Method := ⟨⟨"turn", [⟨"target", .int 8⟩]⟩, []⟩

def dialSpecification : Specification where
  contract := "Dial"
  storage := .empty
  constructor := ⟨"Dial", .ofConstructor [], [], []⟩
  behaviours := [{
    name := "turn"
    contract := "Dial"
    interface := dialTurn.interface
    branch := 0
    preconditions := []
    storageUpdates := [⟨dialItem, .var "target" (.int 8)⟩]
    returns := none }]

def dialSpecified : List Branch :=
  [.ofStore [] .empty (.write (.lit 0) (.var "target") .abstract)]

def dialExplored : List Branch :=
  [.ofStore [] .empty (.write (.lit 0) (.not (.var "target")) .abstract)]

-- A call with the given word for the target.
def dialCall (target : Word) : Assignment :=
  { Assignment.empty with
    calldata := .ofList [("target", target)]
    selector := dialTurn.selector.toWord }

theorem behavioursOf_dial :
    dialSpecification.behavioursOf dialTurn.signature = dialSpecification.behaviours := by
  decide +kernel

theorem wellTypedCall_dial : WellTypedCall dialResolver dialTurn (dialCall Word.max) := by
  refine wellTypedCall_iff.mpr ⟨rfl, by decide +kernel, fun value => ?_, ?_⟩
  · cases value <;> decide +kernel
  · intro slot item hlisted _
    have hall : ∀ entry ∈ dialResolver.resolvable, entry.2.type.holds
        ((Valuation.ofStorage (dialCall Word.max) dialResolver).preValue entry.2.name) = true := by
      decide +kernel
    exact hall (slot, item) hlisted

-- A position of minus one is asked about. The position 128 is not, although there the two sides
-- differ as well.
theorem query_exact_in_wellTyped_calls_dial :
    (∀ argument ∈ dialTurn.interface.arguments, argument.type.isWellSized = true) ∧
    (∀ slot item, (slot, item) ∈ dialResolver.resolvable → item.type.isWellSized = true) ∧
    (dialSpecification.behavioursOf dialTurn.signature).mapM
      (Lowerer.behaviourBranch dialResolver) = .ok dialSpecified ∧
    ∃ typed, assumptions (.before dialResolver .abstract) dialTurn.interface
        (dialResolver.resolvable.map Prod.snd) = .ok typed ∧
      let assumed := typed ++ [.eqWords .selector (.lit dialTurn.selector.toWord)]
      outcome? (dialCall Word.max) [0] (underAll assumed dialSpecified) ≠
        outcome? (dialCall Word.max) [0] (underAll assumed dialExplored) ∧
      outcome? (dialCall 128) [0] dialSpecified ≠ outcome? (dialCall 128) [0] dialExplored ∧
      outcome? (dialCall 128) [0] (underAll assumed dialSpecified) =
        outcome? (dialCall 128) [0] (underAll assumed dialExplored) := by
  have hstored : ∀ entry ∈ dialResolver.resolvable, entry.2.type = .int 8 := by decide +kernel
  have hsized : ∀ slot item, (slot, item) ∈ dialResolver.resolvable →
      item.type.isWellSized = true := by
    intro slot item hlisted
    rw [hstored (slot, item) hlisted]
    rfl
  have hspecified : (dialSpecification.behavioursOf dialTurn.signature).mapM
      (Lowerer.behaviourBranch dialResolver) = .ok dialSpecified := by
    rw [behavioursOf_dial]
    rfl
  have hintegers : dialResolver.HoldsIntegers := by
    intro slot item length hlisted htype
    rw [hstored (slot, item) hlisted] at htype
    exact nomatch htype
  obtain ⟨typed, htyped⟩ := (exists_assumptions_iff .abstract dialTurn.interface).mpr hintegers
  obtain ⟨_, hexact⟩ := query_exact_in_wellTyped_calls (by decide) hsized hspecified htyped
    dialExplored
  obtain ⟨_, _, hasked⟩ := hexact (dialCall Word.max)
  obtain ⟨_, _, hskipped⟩ := hexact (dialCall 128)
  refine ⟨by decide, hsized, hspecified, typed, htyped, ?_, by decide +kernel, ?_⟩
  · exact (hasked [0]).mpr ⟨wellTypedCall_dial, by decide +kernel⟩
  · by_contra hdiffers
    obtain ⟨hcall, _⟩ := (hskipped [0]).mp hdiffers
    obtain ⟨_, hhigh⟩ := hcall.arguments ⟨"target", .int 8⟩ List.mem_cons_self _ _ rfl
    exact absurd hhigh (by decide +kernel)

end SpecRecovery.Verification
