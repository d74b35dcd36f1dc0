import SpecRecovery.Proofs.Assembly.Basic
import SpecRecovery.Proofs.Layout.Resolution
import SpecRecovery.Proofs.Spec.NormalForm
import SpecRecovery.Proofs.Table.Lookup

namespace SpecRecovery

open Machine Spec

theorem Interface.name_of_argument? {interface : Interface} {name : String} {argument : Argument}
    (h : interface.argument? name = some argument) : argument.name = name := by
  have hname := List.find?_some h
  exact beq_iff_eq.mp hname

namespace Lifter

-- The expressions that stand in a specification: literals of words, arguments with their declared
-- elementary types, variables of the storage before, and range facts about a single sum or product
-- of unsigned atoms.
def recovered (resolver : Resolver) (interface : Interface) : Vocabulary where
  atom
    | .lit value => Word.Unsigned value
    | .var name type =>
        interface.argument? name = some ⟨name, type⟩ ∧ type.isElementary = true
    | .entry timing item => timing = .pre ∧ resolver.Lists item
    | _ => True
  fact := (emitted resolver).fact

theorem allows_recovered (lifter : Lifter) :
    Allows (recovered lifter.resolver lifter.interface) lifter where
  literal _ h := h
  argument name argument h helementary := by
    obtain rfl := Interface.name_of_argument? h
    exact ⟨h, helementary⟩
  environment _ := trivial
  stored slot _ h := ⟨rfl, Resolver.lists_iff.mpr ⟨slot, h⟩⟩
  fact _ _ h := h

end Lifter

namespace Spec

-- Expressions are made of nothing but a vocabulary, given all integers and truths that occur in
-- them. There are no equations of byte strings or contracts.
structure Vocabulary.Covers (vocabulary : Vocabulary) (integers : List IntExpr)
    (booleans : List BoolExpr) : Prop where
  atoms : ∀ part ∈ integers, vocabulary.atom part
  facts : ∀ type value, .inRange type value ∈ booleans → vocabulary.fact type value
  equations : ∀ equation, .eq equation ∈ booleans ∨ .neq equation ∈ booleans →
    equation.kind = .integer ∨ equation.kind = .boolean

namespace Vocabulary.Covers

variable {vocabulary : Vocabulary} {integers otherIntegers : List IntExpr}
  {booleans otherBooleans : List BoolExpr}

theorem nil : vocabulary.Covers [] [] := ⟨nofun, nofun, nofun⟩

theorem append (h : vocabulary.Covers integers booleans)
    (hother : vocabulary.Covers otherIntegers otherBooleans) :
    vocabulary.Covers (integers ++ otherIntegers) (booleans ++ otherBooleans) := by
  constructor
  case atoms => exact List.forall_mem_append.mpr ⟨h.atoms, hother.atoms⟩
  case facts =>
    intro type value hmem
    exact (List.mem_append.mp hmem).elim (h.facts type value) (hother.facts type value)
  case equations =>
    intro equation hmem
    rw [List.mem_append, List.mem_append, or_or_or_comm] at hmem
    exact hmem.elim (h.equations equation) (hother.equations equation)

theorem flatMap {α : Type} {inputs : List α} {integersOf : α → List IntExpr}
    {booleansOf : α → List BoolExpr}
    (h : ∀ input ∈ inputs, vocabulary.Covers (integersOf input) (booleansOf input)) :
    vocabulary.Covers (inputs.flatMap integersOf) (inputs.flatMap booleansOf) := by
  induction inputs with
  | nil => exact nil
  | cons input rest ih =>
      obtain ⟨hinput, hrest⟩ := List.forall_mem_cons.mp h
      exact hinput.append (ih hrest)

end Vocabulary.Covers

section Recovered

variable {resolver : Resolver} {interface : Interface}

-- Compound integers are no atoms, and so nothing is asked of them.
theorem covers_of_wellSigned {integers : List IntExpr} {booleans : List BoolExpr}
    (h : (∀ part ∈ integers, part.WellSigned (Lifter.recovered resolver interface)) ∧
      ∀ part ∈ booleans, part.WellSigned (Lifter.recovered resolver interface)) :
    (Lifter.recovered resolver interface).Covers integers booleans := by
  constructor
  case atoms =>
    intro part hpart
    have hwell := h.1 part hpart
    cases part with
    | arithmetic | ite => trivial
    | lit | var | env | entry => exact hwell
  case facts =>
    intro type value hmem
    exact (h.2 _ hmem).2
  case equations =>
    intro equation hmem
    have hwell : equation.WellSigned (Lifter.recovered resolver interface) :=
      hmem.elim (h.2 (.eq equation)) (h.2 (.neq equation))
    cases equation with
    | integer => exact .inl rfl
    | boolean => exact .inr rfl
    | byteString | contract => exact nomatch hwell

theorem covers_preconditions {preconditions : List BoolExpr}
    (h : ∀ value ∈ preconditions, value.WellSigned (Lifter.recovered resolver interface)) :
    (Lifter.recovered resolver interface).Covers (preconditions.flatMap BoolExpr.visited)
      (preconditions.flatMap BoolExpr.booleans) :=
  .flatMap fun value hvalue => covers_of_wellSigned (value.wellSigned_parts (h value hvalue))

theorem covers_updates {updates : List StorageUpdate}
    (h : ∀ update ∈ updates, update.value.WellSigned (Lifter.recovered resolver interface)) :
    (Lifter.recovered resolver interface).Covers
      (updates.flatMap fun update => update.value.visited)
      (updates.flatMap fun update => update.value.booleans) :=
  .flatMap fun update hupdate =>
    covers_of_wellSigned (update.value.wellSigned_parts (h update hupdate))

theorem covers_returns {returns : Option IntExpr}
    (h : ∀ value, returns = some value → value.WellSigned (Lifter.recovered resolver interface)) :
    (Lifter.recovered resolver interface).Covers ((returns.map IntExpr.visited).getD [])
      ((returns.map IntExpr.booleans).getD []) := by
  cases returns with
  | none => exact .nil
  | some value => exact covers_of_wellSigned (value.wellSigned_parts (h value rfl))

end Recovered

-- The boolean expressions within all that is read.
def Behaviour.booleans (behaviour : Behaviour) : List BoolExpr :=
  behaviour.preconditions.flatMap BoolExpr.booleans ++
    behaviour.storageUpdates.flatMap (fun update => update.value.booleans) ++
    (behaviour.returns.map IntExpr.booleans).getD []

def Constructor.booleans (constructor : Constructor) : List BoolExpr :=
  constructor.preconditions.flatMap BoolExpr.booleans ++
    constructor.initialStorage.flatMap fun update => update.value.booleans

-- Preconditions differ from each other, cannot be taken apart and cannot be written more simply.
structure Settled (preconditions : List BoolExpr) : Prop where
  nodup : preconditions.Nodup
  split : ∀ value ∈ preconditions, ∀ left right, value ≠ .join .and left right
  canonical : ∀ value ∈ preconditions, value.canonical = value

-- What is left after the first of equal elements is kept does not contain that element any more.
theorem nodup_eraseDups {α : Type} [DecidableEq α] (values : List α) :
    values.eraseDups.Nodup := by
  induction hlength : values.length using Nat.strongRecOn generalizing values with
  | _ length ih =>
      cases values with
      | nil => exact .nil
      | cons first rest =>
          rw [List.eraseDups_cons, List.nodup_cons, List.mem_eraseDups]
          have hshorter := List.length_filter_le (fun other => !other == first) rest
          rw [List.length_cons] at hlength
          exact ⟨by simp, ih _ (by omega) _ rfl⟩

theorem settled_eraseDups (exprs : List BoolExpr) :
    Settled (exprs.flatMap fun expr => expr.canonical.conjuncts).eraseDups := by
  have hmem (value : BoolExpr)
      (hvalue : value ∈ (exprs.flatMap fun expr => expr.canonical.conjuncts).eraseDups) :
      ∃ expr, value ∈ (BoolExpr.canonical expr).conjuncts := by
    rw [List.mem_eraseDups, List.mem_flatMap] at hvalue
    obtain ⟨expr, _, hpart⟩ := hvalue
    exact ⟨expr, hpart⟩
  constructor
  case nodup => exact nodup_eraseDups _
  case split =>
    intro value hvalue
    obtain ⟨expr, hpart⟩ := hmem value hvalue
    exact expr.canonical.ne_and_of_mem_conjuncts value hpart
  case canonical =>
    intro value hvalue
    obtain ⟨expr, hpart⟩ := hmem value hvalue
    exact value.canonical_of_normal
      (expr.canonical.normal_conjuncts expr.normal_canonical value hpart)

-- Updates ascend by slot, each to what its slot resolves to, so that no two share a target. Nothing
-- but the vocabulary of the method is read.
structure Behaviour.WellShaped (resolver : Resolver) (behaviour : Behaviour) : Prop where
  slots : ∃ slots : List Word, slots.Pairwise (· < ·) ∧
    List.Forall₂ (fun slot update => resolver.resolve slot = .ok update.item) slots
      behaviour.storageUpdates
  targets : (behaviour.storageUpdates.map StorageUpdate.item).Nodup
  expressions : (Lifter.recovered resolver behaviour.interface).Covers behaviour.reads
    behaviour.booleans
  preconditions : Settled behaviour.preconditions

structure Constructor.WellShaped (resolver : Resolver) (constructor : Constructor) : Prop where
  expressions : (Lifter.recovered resolver constructor.interface).Covers constructor.reads
    constructor.booleans
  preconditions : Settled constructor.preconditions

end Spec

namespace Assembling

variable {lifter : Lifter} {conditions : List Cond} {values : List BoolExpr}

theorem settled_of_preconditions (h : Yields (preconditions lifter conditions) values) :
    Settled values := by
  obtain ⟨exprs, _, rfl⟩ := yields_preconditions.mp h
  exact settled_eraseDups exprs

theorem wellSigned_recovered_of_preconditions
    (h : Yields (preconditions lifter conditions) values) :
    ∀ value ∈ values, value.WellSigned (Lifter.recovered lifter.resolver lifter.interface) :=
  wellSigned_of_preconditions lifter.allows_recovered
    (Lifter.emitted_fact_canonical lifter.resolver) h

-- The slots are those of the final writes, whose table ascends. A slot is found again by the name
-- of what it resolves to.
theorem slots_of_updates {resolver : Resolver} {writes : Table Word Machine.Expr}
    {updates : List StorageUpdate}
    (h : List.Forall₂ (fun entry update => resolver.resolve entry.1 = .ok update.item)
      writes.entries updates) :
    writes.keys.Pairwise (· < ·) ∧
      List.Forall₂ (fun slot update => resolver.resolve slot = .ok update.item) writes.keys
        updates ∧
      (updates.map StorageUpdate.item).Nodup := by
  have hascending : writes.keys.Pairwise (· < ·) := by
    exact List.pairwise_map.mpr (writes.ascending.imp fun hlt => compareOfLessAndEq_eq_lt.mp hlt)
  refine ⟨hascending, List.forall₂_map_left_iff.mpr h, ?_⟩
  have hslots : writes.entries.map (fun entry => some entry.1) =
      updates.map fun update => resolver.slotOf? update.item.name :=
    map_eq_map_of_forall₂ (h.imp fun _ _ hitem => (Resolver.slotOf?_of_resolve hitem).symm)
  have hnodup : (writes.entries.map fun entry => some entry.1).Nodup := by
    simpa [Table.keys, Function.comp_def] using
      writes.keys_nodup.map (Option.some_injective Word)
  rw [hslots] at hnodup
  exact List.Nodup.of_map (fun item : StorageItem => resolver.slotOf? item.name)
    (by rwa [List.map_map])

theorem Recovers.wellShaped {word : Bool} {branch : Branch} {recovered : Behaviour}
    (h : Recovers lifter word branch recovered)
    (hinterface : recovered.interface = lifter.interface) :
    recovered.WellShaped lifter.resolver := by
  have hpreconditions := yields_preconditions.mpr h.preconditions
  obtain ⟨_, writes, _, _, hupdates⟩ := h.updates
  obtain ⟨hascending, hslots, htargets⟩ :=
    slots_of_updates (hupdates.imp fun _ _ hupdate => hupdate.1)
  refine ⟨⟨writes.keys, hascending, hslots⟩, htargets, ?_, settled_of_preconditions hpreconditions⟩
  rw [hinterface]
  have hreturns := covers_returns fun value => h.wellSigned_returns lifter.allows_recovered
  exact ((covers_preconditions (wellSigned_recovered_of_preconditions hpreconditions)).append
    (covers_updates (wellSigned_of_updates lifter.allows_recovered hupdates))).append hreturns

-- Every behaviour of a method has the shape, whichever path it comes from.
theorem wellShaped_of_behaviours {resolver : Resolver} {idioms : Idioms} {summary : MethodSummary}
    {recovered : List Behaviour} (h : Yields (behaviours resolver idioms summary) recovered) :
    ∀ behaviour ∈ recovered, behaviour.WellShaped resolver := by
  intro behaviour hbehaviour
  have hinterface := (headers_of_behaviours h).2 behaviour hbehaviour
  obtain ⟨_, _, hrecovers⟩ := recovers_of_behaviours h
  obtain ⟨_, _, hrecovers⟩ := (exists_of_forall₂ hrecovers).2 behaviour hbehaviour
  exact hrecovers.wellShaped hinterface

-- Whatever the creation does not write starts as zero.
theorem value_of_initialStorage {resolver : Resolver} {updates : List StorageUpdate}
    {update : StorageUpdate} (h : update ∈ initialStorage resolver updates) :
    update.value = .lit 0 ∨ ∃ write ∈ updates, write.value = update.value := by
  obtain ⟨⟨slot, item⟩, _, rfl⟩ := List.mem_map.mp h
  simp only
  cases hfind : (Table.ofList (updates.map fun update => (update.item.name, update.value))).find?
      item.name with
  | none => exact .inl rfl
  | some value =>
      obtain ⟨write, hwrite, hpair⟩ := List.mem_map.mp (Table.mem_of_find?_ofList hfind)
      exact .inr ⟨write, hwrite, congrArg Prod.snd hpair⟩

theorem wellShaped_of_constructor {resolver : Resolver} {idioms : Idioms} {interface : Interface}
    {branches : List Branch} {assembled : Constructor}
    (h : Yields (constructor resolver idioms interface branches) assembled) :
    assembled.WellShaped resolver := by
  obtain ⟨branch, values, updates, _, hvalues, hupdates, rfl⟩ := constructor_of_yields h
  obtain ⟨_, writes, _, _, hwritten⟩ := updates_of_yields hupdates
  have hallows := Lifter.allows_recovered ⟨resolver, interface, idioms⟩
  refine ⟨(covers_preconditions (wellSigned_recovered_of_preconditions hvalues)).append
    (covers_updates fun update hupdate => ?_), settled_of_preconditions hvalues⟩
  rcases value_of_initialStorage hupdate with hzero | ⟨write, hwrite, hvalue⟩
  · rw [hzero]
    exact hallows.literal 0 Lifter.unsigned_zero
  · rw [← hvalue]
    exact wellSigned_of_updates hallows hwritten write hwrite

end Assembling

-- Whenever a contract can be specified, its layout can be resolved, and every part of the
-- specification has the shape that lowering and enriching it rely on.
theorem shape_of_specification {idioms : Idioms} {summary : ContractSummary} {assembly : Assembly}
    {specification : Specification} (hassembly : summary.assemble idioms = .ok assembly)
    (h : assembly.specification = .ok specification) :
    ∃ resolver, Resolver.ofLayout summary.name summary.layout = .ok resolver ∧
      specification.constructor.interface = summary.constructor ∧
      specification.constructor.WellShaped resolver ∧
      ∀ behaviour ∈ specification.behaviours, behaviour.WellShaped resolver ∧
        ∃ entry method, (entry, .ok method) ∈ summary.runtime ∧
          behaviour.interface = method.method.interface := by
  have hassembles := assembles_of_assemble hassembly
  obtain ⟨_, _, hconstructor, lists, hlists, hbehaviours⟩ := Assembly.specification_eq_ok_iff.mp h
  have hcreation := hassembles.constructor
  rw [hconstructor] at hcreation
  obtain ⟨branches, resolver, _, hresolver, hcreation⟩ :=
    ContractSummary.exists_of_assembleEntry hcreation
  refine ⟨resolver, hresolver, Assembling.interface_of_constructor hcreation,
    Assembling.wellShaped_of_constructor hcreation, ?_⟩
  intro behaviour hbehaviour
  rw [hbehaviours, List.mem_flatten] at hbehaviour
  obtain ⟨recovered, hrecovered, hbehaviour⟩ := hbehaviour
  obtain ⟨outcome, houtcome, hok⟩ := (exists_of_forall₂ hlists).2 recovered hrecovered
  obtain ⟨⟨entry, result⟩, hentry, _, hmethod⟩ :=
    (exists_of_forall₂ hassembles.behaviours).2 outcome houtcome
  rw [hok] at hmethod
  obtain ⟨method, other, rfl, hother, hyields⟩ := ContractSummary.exists_of_assembleEntry hmethod
  obtain rfl := Except.ok.inj (hresolver.symm.trans hother)
  have hinterface := (Assembling.headers_of_behaviours hyields).2 behaviour hbehaviour
  obtain ⟨word, _, hrecovers⟩ := Assembling.recovers_of_behaviours hyields
  obtain ⟨branch, _, hrecovers⟩ := (exists_of_forall₂ hrecovers).2 behaviour hbehaviour
  exact ⟨hrecovers.wellShaped hinterface, entry, method, hentry, hinterface⟩

-- An account whose creation gives a bonus. A deposit is of something, fits in the balance and is
-- counted, and says so twice.
def accountBalance : StorageItem := ⟨"Account", "balance", .uint256⟩

def accountDeposits : StorageItem := ⟨"Account", "deposits", .uint256⟩

def accountSummary : ContractSummary where
  name := "Account"
  layout := ⟨[.ofValue "balance" 0 .uint256, .ofValue "deposits" 1 .uint256]⟩
  constructor := .ofConstructor [⟨"bonus", .uint256⟩]
  creation := .ok [.ofStore [] .empty (.write (.lit 0) (.var "bonus") (.concrete .empty))]
  runtime := [(.method "deposit(uint256)", .ok {
    method := ⟨⟨"deposit", [⟨"amount", .uint256⟩]⟩, []⟩
    branches := [.ofStore
      [.join .and (.neg (.eqWords (.var "amount") (.lit 0))) (.neg (.lt
        (.binary .xor (.var "amount") (.lit Word.max)) (.sload (.lit 0) .abstract))),
        .neg (.eqWords (.var "amount") (.lit 0))]
      .empty
      (.write (.lit 0) (.add (.sload (.lit 0) .abstract) (.var "amount"))
        (.write (.lit 1) (.add (.sload (.lit 1) .abstract) (.lit 1)) .abstract))] })]

def accountConstructor : Constructor where
  contract := "Account"
  interface := .ofConstructor [⟨"bonus", .uint256⟩]
  preconditions := []
  initialStorage := [⟨accountBalance, .var "bonus" .uint256⟩, ⟨accountDeposits, .lit 0⟩]

def accountDeposit : Behaviour where
  name := "deposit"
  contract := "Account"
  interface := ⟨"deposit", [⟨"amount", .uint256⟩]⟩
  branch := 0
  preconditions := [.neg (.intEq (.var "amount" .uint256) (.lit 0)),
    .inRange .uint256 (.add (.var "amount" .uint256) (.pre accountBalance))]
  storageUpdates := [⟨accountBalance, .add (.pre accountBalance) (.var "amount" .uint256)⟩,
    ⟨accountDeposits, .add (.pre accountDeposits) (.lit 1)⟩]
  returns := none

def accountSpecification : Specification :=
  ⟨"Account", accountSummary.declarations, accountConstructor, [accountDeposit]⟩

theorem shape_of_specification_account :
    ∃ assembly resolver, accountSummary.assemble .all = .ok assembly ∧
      assembly.specification = .ok accountSpecification ∧
      Resolver.ofLayout "Account" accountSummary.layout = .ok resolver ∧
      accountConstructor.WellShaped resolver ∧ accountDeposit.WellShaped resolver := by
  have hrun : ((accountSummary.assemble .all).toOption.bind fun assembly =>
      assembly.specification.toOption) = some accountSpecification := by decide +kernel
  obtain ⟨assembly, hassembly, hspecification⟩ := Option.bind_eq_some_iff.mp hrun
  rw [toOption_eq_some] at hassembly hspecification
  obtain ⟨resolver, hresolver, _, hconstructor, hbehaviours⟩ :=
    shape_of_specification hassembly hspecification
  exact ⟨assembly, resolver, hassembly, hspecification, hresolver, hconstructor,
    (hbehaviours accountDeposit List.mem_cons_self).1⟩

end SpecRecovery
