import SpecRecovery.Proofs.Artifact.Sizes
import SpecRecovery.Proofs.Exploration.Successes
import SpecRecovery.Proofs.Layout.Inversion
import SpecRecovery.Proofs.Recovery.Run
import SpecRecovery.Proofs.Sampling.Coverage
import SpecRecovery.Proofs.Verification.Behaviours
import SpecRecovery.Proofs.Verification.Exactness

namespace SpecRecovery

open Machine Spec Sampling Verification

namespace Sampling

variable {assignment : Assignment} {slots : List Word} {program : Program} {state : State}
  {position : Nat} {branches : List Branch} {leaves before after : List Leaf} {leaf : Leaf}

theorem fails_of_success? (honly : OnlyTaken assignment Leaf.path leaves before leaf after)
    {others : List Leaf} (hothers : others ⊆ before ++ after) :
    ∀ branch ∈ others.filterMap Leaf.success?,
      allHold assignment branch.conditions = .ok false := by
  intro branch hbranch
  obtain ⟨other, hother, hsuccess⟩ := List.mem_filterMap.mp hbranch
  rw [Leaf.conditions_of_success? hsuccess]
  exact Leaf.allHold_toState_of_closed (honly.others other (hothers hother))

-- The successful paths together have the outcome of the end that a run takes.
theorem outcome?_of_run (hrun : program.run assignment = .ok (position, state))
    (hbranches : Exploration.successes program.flatten = .ok branches) (slots : List Word) :
    outcome? assignment slots branches = outcome? assignment slots state.success?.toList := by
  obtain ⟨before, leaf, after, honly, _, rfl⟩ := Program.exists_onlyTaken hrun
  rw [Exploration.successes_eq_ok, Exploration.filterMap_success?_flatten] at hbranches
  obtain ⟨_, rfl⟩ := hbranches
  have hbefore := fails_of_success? honly (List.subset_append_left before after)
  have hafter := fails_of_success? honly (List.subset_append_right before after)
  rw [honly.split, List.filterMap_append, outcome?_append_of_fails hbefore, List.filterMap_cons,
    leaf.success?_eq_map]
  cases leaf.state.success? with
  | none => exact outcome?_of_fails hafter
  | some own =>
      -- the path to the end that is taken holds, so only the conditions of the end itself decide
      have hconditions : allHold assignment (own.under leaf.path).conditions =
          allHold assignment own.conditions := allHold_append_of_holds honly.taken own.conditions
      have hsame : outcomeOf assignment slots (own.under leaf.path) =
          outcomeOf assignment slots own := rfl
      rw [Option.map_some, outcome?, hconditions, hsame, outcome?_of_fails hafter]
      rfl

-- A run that does not revert reaches the states.
theorem reached_of_run (hrun : program.run assignment = .ok (position, state))
    (hends : (state.isSuccess || state.isUnfinished) = true)
    (hholds : allHold assignment state.conditions = .ok true) :
    Reached assignment program.flatten := by
  obtain ⟨before, leaf, after, honly, _, rfl⟩ := Program.exists_onlyTaken hrun
  have hleaf : leaf ∈ program.leaves := by
    rw [honly.split]
    exact List.mem_append_right before List.mem_cons_self
  refine ⟨leaf.toState, ?_, ?_, (Leaf.allHold_toState_of_taken honly.taken).trans hholds⟩
  · rw [program.flatten_eq_map_leaves]
    exact List.mem_map_of_mem hleaf
  · obtain ⟨path, state⟩ := leaf
    cases state <;> exact hends

end Sampling

-- A solver that calls two sides equivalent only if they have the same outcome under every
-- assignment, and selectors covered only if no other is answered to.
structure Solver.Sound (solver : Solver) : Prop where
  equivalence : ∀ specified explored, solver.equivalence specified explored = .ok none →
    ∀ assignment slots,
      outcome? assignment slots specified = outcome? assignment slots explored
  exhaustiveness : ∀ declared states, solver.exhaustiveness declared states = .ok .covered →
    ∀ assignment selector, assignment.selector = selector.toWord → Reached assignment states →
      selector ∈ declared

-- Whatever the inputs of a kind are, a run of the explored code has the outcome of the paths.
def Explorer.Confirms (explorer : Explorer) (query : Query) (inputs : Assignment → Prop)
    (paths : List Branch) : Prop :=
  ∃ program, explorer.explore query = .ok program ∧
    ∀ assignment position state, inputs assignment →
      program.run assignment = .ok (position, state) →
      ∀ slots, outcome? assignment slots paths = outcome? assignment slots state.success?.toList

theorem Explorer.confirms_of_outcome?_eq {explorer : Explorer} {entry : EntryPoint} {query : Query}
    {inputs : Assignment → Prop} {branches paths : List Branch}
    (hflatten : explorer.flatten = Program.flatten)
    (hexplored : (Exploration.run explorer entry query).branches = .ok branches)
    (h : ∀ assignment, inputs assignment → ∀ slots,
      outcome? assignment slots paths = outcome? assignment slots branches) :
    explorer.Confirms query inputs paths := by
  obtain ⟨states, hstates, hbranches⟩ := bind_eq_ok.mp hexplored
  obtain ⟨program, hprogram, rfl⟩ := map_eq_ok.mp hstates
  rw [hflatten] at hbranches
  refine ⟨program, hprogram, fun assignment position state hinputs hrun slots => ?_⟩
  exact (h assignment hinputs slots).trans (outcome?_of_run hrun hbranches slots)

section Queries

variable {resolver : Resolver} {contract : Contract} {creation specified explored : List Branch}
  {specification : Specification} {conditions : List Cond} {assignment : Assignment}
  {slots : List Word} {solver : Solver} {summary : MethodSummary}

theorem outcome?_eq_of_underAll (hholds : allHold assignment conditions = .ok true)
    (h : outcome? assignment slots (underAll conditions specified) =
      outcome? assignment slots (underAll conditions explored)) :
    outcome? assignment slots specified = outcome? assignment slots explored := by
  rwa [outcome?_underAll_of_holds hholds, outcome?_underAll_of_holds hholds] at h

theorem outcome?_eq_of_compare_constructor (hsound : solver.Sound)
    (hsized : ∀ argument ∈ contract.constructor.arguments, argument.type.isWellSized = true)
    (h : compare solver (constructorQuery resolver contract creation specification) = .ok ()) :
    ∃ lowered, Lowerer.constructorBranch resolver specification.constructor contract.runtimeCode =
        .ok lowered ∧
      ∀ assignment, WellTypedCreation contract.constructor assignment →
        ∀ slots, outcome? assignment slots [lowered] = outcome? assignment slots creation := by
  obtain ⟨query, hquery, hanswer⟩ := compare_eq_ok.mp h
  obtain ⟨lowered, typed, hlowered, htyped, rfl⟩ := constructorQuery_eq_ok.mp hquery
  refine ⟨lowered, hlowered, fun assignment hinputs slots => ?_⟩
  exact outcome?_eq_of_underAll (allHold_of_wellTypedCreation hsized htyped hinputs)
    (hsound.equivalence _ _ hanswer assignment slots)

theorem outcome?_eq_of_compare_method (hsound : solver.Sound)
    (harguments : ∀ argument ∈ summary.method.interface.arguments,
      argument.type.isWellSized = true)
    (hstored : ∀ slot item, (slot, item) ∈ resolver.resolvable → item.type.isWellSized = true)
    (h : compare solver (methodQuery resolver summary specification) = .ok ()) :
    ∃ lowered, (specification.behavioursOf summary.method.signature).mapM
        (Lowerer.behaviourBranch resolver) = .ok lowered ∧
      ∀ assignment, WellTypedCall resolver summary.method assignment →
        ∀ slots, outcome? assignment slots lowered =
          outcome? assignment slots summary.branches := by
  obtain ⟨query, hquery, hanswer⟩ := compare_eq_ok.mp h
  obtain ⟨lowered, typed, hlowered, htyped, rfl⟩ := methodQuery_eq_ok.mp hquery
  refine ⟨lowered, hlowered, fun assignment hcall slots => ?_⟩
  obtain ⟨truth, hholds, htruth⟩ := exists_allHold_assumed harguments hstored htyped assignment
  obtain rfl := htruth.mpr hcall
  exact outcome?_eq_of_underAll hholds (hsound.equivalence _ _ hanswer assignment slots)

end Queries

namespace Contract

variable {explorer : Explorer} {solver : Solver} {settings : Recovery.Settings}
  {contract : Contract} {specification : Specification} {resolver : Resolver}
  {recovery : Recovery}

-- The types of whatever is passed, returned or stored exist.
def WellSized (contract : Contract) : Prop :=
  ∀ type ∈ contract.calledTypes ++ contract.storedTypes, type.isWellSized = true

theorem WellSized.argument_of_constructor (h : contract.WellSized) {argument : Argument}
    (hargument : argument ∈ contract.constructor.arguments) : argument.type.isWellSized = true :=
  h _ (List.mem_append_left _ (List.mem_append_left _ (List.mem_map_of_mem hargument)))

theorem WellSized.argument_of_method (h : contract.WellSized) {method : Method}
    (hmethod : method ∈ contract.methods) {argument : Argument}
    (hargument : argument ∈ method.interface.arguments) : argument.type.isWellSized = true :=
  h _ (List.mem_append_left _ (List.mem_append_right _ (List.mem_flatMap.mpr
    ⟨method, hmethod, List.mem_append_left _ (List.mem_map_of_mem hargument)⟩)))

theorem WellSized.resolvable (h : contract.WellSized)
    (hlayout : Resolver.ofLayout contract.name contract.layout = .ok resolver) {slot : Word}
    {item : StorageItem} (hlisted : (slot, item) ∈ resolver.resolvable) :
    item.type.isWellSized = true := by
  obtain ⟨stored, hslot, _, htype, _⟩ :=
    Resolver.exists_of_resolve ((resolver.mem_resolvable_iff slot item).mp hlisted)
  obtain ⟨hdeclared, _⟩ := Resolver.mem_inSlot.mp (hslot ▸ List.mem_singleton_self stored)
  rw [(Resolver.ofLayout_eq_ok hlayout).2] at hdeclared
  refine h _ (List.mem_append_right _ (List.mem_flatMap.mpr ⟨stored, hdeclared, ?_⟩))
  rw [htype]
  exact List.mem_singleton_self item.type

-- What a specification says of a contract is what the explored code does. Where the inputs are well
-- typed, a run of the creation code has the outcome of the constructor, and a run of a method that
-- of its behaviours. Where coverage is checked, no run of the code as a whole ends without a revert
-- under a selector that has no behaviour.
structure Obeys (explorer : Explorer) (checkExhaustiveness : Bool) (contract : Contract)
    (resolver : Resolver) (specification : Specification) : Prop where
  constructor : ∃ lowered, Lowerer.constructorBranch resolver specification.constructor
      contract.runtimeCode = .ok lowered ∧
    explorer.Confirms ⟨contract.creationCode, .creation contract.constructor.arguments⟩
      (WellTypedCreation contract.constructor) [lowered]
  methods : ∀ method ∈ contract.methods, ∃ lowered,
    (specification.behavioursOf method.signature).mapM (Lowerer.behaviourBranch resolver) =
        .ok lowered ∧
      explorer.Confirms
        ⟨contract.runtimeCode, .method method.selector method.interface.arguments⟩
        (WellTypedCall resolver method) lowered
  coverage : checkExhaustiveness = true → ∃ program,
    explorer.explore ⟨contract.runtimeCode, .unconstrained⟩ = .ok program ∧
    ∀ assignment position state selector, program.run assignment = .ok (position, state) →
      (state.isSuccess || state.isUnfinished) = true →
      allHold assignment state.conditions = .ok true → assignment.selector = selector.toWord →
      ∃ behaviour ∈ specification.behaviours, behaviour.interface.selector = selector

variable {checkExhaustiveness : Bool}

theorem obeys_of_passes (hflatten : explorer.flatten = Program.flatten) (hsound : solver.Sound)
    (hsized : contract.WellSized)
    (hlayout : Resolver.ofLayout contract.name contract.layout = .ok resolver)
    (hpasses : Passes explorer solver checkExhaustiveness contract (contract.summarize explorer)
      specification resolver) :
    contract.Obeys explorer checkExhaustiveness resolver specification := by
  constructor
  case constructor =>
    obtain ⟨creation, hcreation, hcompared⟩ := hpasses.creation
    obtain ⟨lowered, hlowered, houtcome⟩ := outcome?_eq_of_compare_constructor hsound
      (fun _ => hsized.argument_of_constructor) hcompared
    have hexplored := explored_of_summarizeCreation (mapError_eq_ok.mp hcreation)
    exact ⟨lowered, hlowered, Explorer.confirms_of_outcome?_eq hflatten hexplored houtcome⟩
  case methods =>
    intro method hmethod
    obtain ⟨summary, hsummary, hcompared⟩ :=
      hpasses.methods _ _ (List.mem_map_of_mem hmethod)
    obtain ⟨rfl, hexplored⟩ := explored_of_summarizeMethod (mapError_eq_ok.mp hsummary)
    obtain ⟨lowered, hlowered, houtcome⟩ := outcome?_eq_of_compare_method hsound
      (fun _ => hsized.argument_of_method hmethod) (fun _ _ => hsized.resolvable hlayout) hcompared
    exact ⟨lowered, hlowered, Explorer.confirms_of_outcome?_eq hflatten hexplored houtcome⟩
  case coverage =>
    intro hcheck
    obtain ⟨states, hstates, hcovered⟩ := covered_of_passes hpasses hcheck
    obtain ⟨program, hprogram, rfl⟩ := map_eq_ok.mp hstates
    refine ⟨program, hprogram, fun assignment position state selector hrun hends hholds h => ?_⟩
    have hreached := reached_of_run hrun hends hholds
    rw [← hflatten] at hreached
    have hdeclared := hsound.exhaustiveness _ _ hcovered assignment selector h hreached
    exact List.mem_map.mp (List.mem_eraseDups.mp hdeclared)

-- With a sound solver, a run recovers no specification that the explored code does not obey.
theorem recovered_specification_obeyed (hflatten : explorer.flatten = Program.flatten)
    (hsound : solver.Sound) (hsized : contract.WellSized)
    (h : contract.recover explorer solver settings = .ok recovery)
    (hspecification : recovery.specification = .ok specification) :
    ∃ resolver, Resolver.ofLayout contract.name contract.layout = .ok resolver ∧
      contract.Obeys explorer settings.checkExhaustiveness resolver specification := by
  obtain ⟨assembly, hassembly, _⟩ := bind_eq_ok.mp h
  cases (specification_eq_iff hassembly h).mp hspecification with
  | recovered _ hlayout hpasses =>
      exact ⟨_, hlayout, obeys_of_passes hflatten hsound hsized hlayout hpasses⟩

-- A lamp that can be switched on, and an engine that knows its code.
def lampOn : Method := ⟨⟨"on", []⟩, []⟩

def lampContract : Contract where
  name := "Lamp"
  creationCode := [0x60]
  runtimeCode := [0xfe]
  constructor := .ofConstructor []
  methods := [lampOn]
  layout := ⟨[.ofValue "lit" 0 .bool]⟩

def lampLit (conditions : List Cond) : Program :=
  .done (.success (.ofStore conditions .empty (.write (.lit 0) (.lit 1) .abstract)))

def lampExplorer : Explorer where
  explore
    | ⟨_, .creation _⟩ =>
        .ok (.done (.success (.ofStore [] (.concrete [0xfe]) (.write (.lit 0) (.lit 0) .empty))))
    | ⟨_, .method _ _⟩ => .ok (lampLit [])
    | ⟨_, .unconstrained⟩ => .ok (lampLit [.eqWords .selector (.lit lampOn.selector.toWord)])

-- That a state is only reached under one of the selectors.
def Guarded (declared : List Selector) (state : State) : Prop :=
  ∃ selector ∈ declared,
    state.conditions.head? = some (.eqWords .selector (.lit selector.toWord))

instance (declared : List Selector) (state : State) : Decidable (Guarded declared state) :=
  inferInstanceAs (Decidable (∃ selector ∈ declared, _))

-- A solver that believes what it sees at once, and gives up on everything else.
def literalSolver : Solver where
  equivalence specified explored :=
    if specified = explored then .ok none else .error (.solver "not the same")
  exhaustiveness declared states :=
    if ∀ state ∈ states, Guarded declared state then .ok .covered
    else .error (.solver "not guarded")

theorem Guarded.mem_declared {declared : List Selector} {state : State} {assignment : Assignment}
    {selector : Selector} (h : Guarded declared state)
    (hselector : assignment.selector = selector.toWord)
    (hholds : allHold assignment state.conditions = .ok true) : selector ∈ declared := by
  obtain ⟨guard, hguard, hhead⟩ := h
  obtain ⟨rest, hconditions⟩ := List.head?_eq_some_iff.mp hhead
  rw [hconditions] at hholds
  have hcond : (Cond.eqWords .selector (.lit guard.toWord)).holds assignment =
      .ok (selector.toWord == guard.toWord) := by
    rw [← hselector]
    rfl
  cases hsame : selector.toWord == guard.toWord with
  | false =>
      rw [allHold_cons_of_fails (hcond.trans (congrArg _ hsame))] at hholds
      exact nomatch hholds
  | true =>
      rw [← selector.ofWord_toWord, beq_iff_eq.mp hsame, guard.ofWord_toWord]
      exact hguard

theorem sound_literalSolver : literalSolver.Sound where
  equivalence specified explored h assignment slots := by
    simp only [literalSolver] at h
    split at h
    · next hsame => rw [hsame]
    · exact nomatch h
  exhaustiveness declared states h assignment selector hselector hreached := by
    simp only [literalSolver] at h
    split at h
    · next hguarded =>
        obtain ⟨state, hstate, _, hholds⟩ := hreached
        exact (hguarded state hstate).mem_declared hselector hholds
    · exact nomatch h

def lampSpecification : Specification where
  contract := "Lamp"
  storage := Table.empty.insert "Lamp" (.ofList [("lit", ⟨.value .bool, 0⟩)])
  constructor := ⟨"Lamp", .ofConstructor [], [], [⟨⟨"Lamp", "lit", .bool⟩, .lit 0⟩]⟩
  behaviours := [{
    name := "on"
    contract := "Lamp"
    interface := lampOn.interface
    branch := 0
    preconditions := []
    storageUpdates := [⟨⟨"Lamp", "lit", .bool⟩, .lit 1⟩]
    returns := none }]

theorem recovered_specification_obeyed_lamp :
    literalSolver.Sound ∧ lampContract.WellSized ∧
    ∃ recovery, lampContract.recover lampExplorer literalSolver .standard = .ok recovery ∧
      recovery.specification = .ok lampSpecification ∧
      ∃ resolver, Resolver.ofLayout lampContract.name lampContract.layout = .ok resolver ∧
        lampContract.Obeys lampExplorer true resolver lampSpecification := by
  have hsized : lampContract.WellSized := by
    unfold WellSized
    decide +kernel
  have hrun : ((lampContract.recover lampExplorer literalSolver .standard).toOption.bind
      fun recovery => recovery.specification.toOption) = some lampSpecification := by
    decide +kernel
  obtain ⟨recovery, hrecovery, hspecification⟩ := Option.bind_eq_some_iff.mp hrun
  rw [toOption_eq_some] at hrecovery hspecification
  exact ⟨sound_literalSolver, hsized, recovery, hrecovery, hspecification,
    recovered_specification_obeyed rfl sound_literalSolver hsized hrecovery hspecification⟩

end Contract

end SpecRecovery
