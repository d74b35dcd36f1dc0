import SpecRecovery.Proofs.Lowering.Branch
import SpecRecovery.Proofs.Machine.Writes
import SpecRecovery.Proofs.Spec.Occurrence

namespace SpecRecovery

open Machine Spec

-- The variable of the contract that has the name of the item. Neither the type of the item counts
-- nor what else lies in the slot of the variable.
structure Resolver.Locates (resolver : Resolver) (item : StorageItem) (stored : StorageVariable) :
    Prop where
  contract : item.contract = resolver.contract
  declared : stored ∈ resolver.layout.declarations
  name : stored.name = item.name

-- The slot of a located item resolves to the item exactly if the variable fills it alone, with a
-- value of the very type.
theorem Resolver.Locates.resolve_iff {resolver : Resolver} {item : StorageItem}
    {stored : StorageVariable} (h : resolver.Locates item stored) :
    resolver.resolve stored.slot = .ok item ↔
      (∀ other ∈ resolver.layout.declarations, other.slot = stored.slot → other = stored) ∧
        stored.offset = 0 ∧ stored.type = .value item.type ∧ item.type.isElementary = true := by
  rw [resolve_eq_ok_iff]
  constructor
  · rintro ⟨hslot, helementary, _⟩
    have hstored := (hslot stored).mp ⟨h.declared, rfl⟩
    refine ⟨fun other hother hsame => ?_, congrArg StorageVariable.offset hstored,
      congrArg StorageVariable.type hstored, helementary⟩
    exact ((hslot other).mp ⟨hother, hsame⟩).trans hstored.symm
  · rintro ⟨halone, hoffset, htype, helementary⟩
    have hstored : stored = .ofValue item.name stored.slot item.type := by
      rw [← h.name, StorageVariable.ofValue, ← hoffset, ← htype]
    refine ⟨fun other => ?_, helementary, h.contract⟩
    rw [← hstored]
    exact ⟨fun hother => halone other hother.1 hother.2, by
      rintro rfl
      exact ⟨h.declared, rfl⟩⟩

-- What decides whether an integer is in a range: the arms of a conditional, and the operands of a
-- difference if the range is that of a signed type.
def Spec.IntExpr.judged (type : AbiType) : IntExpr → List IntExpr
  | .ite _ first second => first.judged type ++ second.judged type
  | .arithmetic .sub left right => if type.isSigned then [left, right] else []
  | value => [value]

namespace Lowerer

variable {lowerer : Lowerer} {resolver : Resolver} {item : StorageItem} {slot : Word}

theorem slot_eq_ok_iff : lowerer.slot item = .ok slot ↔
    ∃ stored, lowerer.resolver.Locates item stored ∧ stored.slot = slot := by
  constructor
  · intro h
    obtain ⟨stored, hdeclared, hname, hslot⟩ := Resolver.slotOf?_eq_some_iff.mp (slot_eq_ok h)
    refine ⟨stored, ⟨?_, hdeclared, hname⟩, hslot⟩
    by_contra hcontract
    rw [Lowerer.slot, if_pos hcontract] at h
    cases h
  · rintro ⟨stored, h, rfl⟩
    rw [Lowerer.slot, if_neg (not_not.mpr h.contract),
      Resolver.slotOf?_eq_some_iff.mpr ⟨stored, h.declared, h.name, rfl⟩]
    rfl

-- The keys that are written are the slots of the updated variables, in order.
theorem writtenKeys_of_updates {updates : List StorageUpdate} {base store : Store}
    (h : lowerer.updates base updates = .ok store) :
    ∃ keys, store.writtenKeys = keys.reverse ++ base.writtenKeys ∧
      List.Forall₂ (fun update key => ∃ stored, lowerer.resolver.Locates update.item stored ∧
        key = .lit stored.slot) updates keys := by
  induction updates generalizing base with
  | nil =>
      obtain rfl := Except.ok.inj h
      exact ⟨[], rfl, .nil⟩
  | cons update rest ih =>
      obtain ⟨written, term, hwritten, _, h⟩ := updates_cons_eq_ok.mp h
      obtain ⟨stored, hlocates, rfl⟩ := slot_eq_ok_iff.mp hwritten
      obtain ⟨keys, hkeys, hrest⟩ := ih h
      refine ⟨.lit stored.slot :: keys, ?_, .cons ⟨stored, hlocates, rfl⟩ hrest⟩
      rw [hkeys, Store.writtenKeys, List.reverse_cons, List.append_assoc]
      rfl

-- Expressions of the kinds that the machine does not have are never lowered.
def Lowers (lowerer : Lowerer) : Spec.Expr → Prop
  | .integer value => ∃ term, lowerer.expr value = .ok term
  | .boolean value => ∃ lowered, lowerer.cond value = .ok lowered
  | .byteString _ | .contract _ => False

-- How a part of a lowered expression is treated: it is lowered itself, or a range fact is stated
-- about it, for which the new value of an updated variable may take its place.
inductive Reaches (lowerer : Lowerer) (whole : Spec.Expr) : Spec.Expr → Prop
  | lowered {part : Spec.Expr} (h : lowerer.Lowers part) : Reaches lowerer whole part
  | ranged {type : AbiType} {fact value : IntExpr} {width : Nat} {lowered : Cond}
      (hfact : (Spec.Expr.boolean (.inRange type fact)).OccursIn whole)
      (hjudged : ∀ part ∈ value.judged type, part ∈ fact.judged type)
      (h : lowerer.range type width value = .ok lowered) : Reaches lowerer whole (.integer value)
  | replaced {item : StorageItem} {type : AbiType} {fact : IntExpr} {update : LoweredUpdate}
      (hfact : (Spec.Expr.boolean (.inRange type fact)).OccursIn whole)
      (hjudged : .entry .post item ∈ fact.judged type)
      (h : lowerer.update? item.name = some update) :
      Reaches lowerer whole (.integer (.entry .post item))

theorem lowers_of_expr {value : IntExpr} {term : Machine.Expr} (h : lowerer.expr value = .ok term) :
    ∀ operand ∈ (Spec.Expr.integer value).operands, lowerer.Lowers operand := by
  cases value with
  | lit | var | env | entry => exact fun _ hoperand => nomatch hoperand
  | arithmetic op left right =>
      obtain ⟨_, first, second, hfirst, hsecond, _⟩ := arithmetic_eq_ok h
      have hleft : lowerer.Lowers (.integer left) := ⟨first, hfirst⟩
      have hright : lowerer.Lowers (.integer right) := ⟨second, hsecond⟩
      simp [Spec.Expr.operands, IntExpr.operands, hleft, hright]
  | ite condition first second =>
      obtain ⟨lowered, hlowered, h⟩ := bind_eq_ok.mp h
      obtain ⟨_, _, h⟩ := bind_eq_ok.mp h
      obtain ⟨one, hone, h⟩ := bind_eq_ok.mp h
      obtain ⟨other, hother, _⟩ := bind_eq_ok.mp h
      have hcondition : lowerer.Lowers (.boolean condition) := ⟨lowered, hlowered⟩
      have hfirst : lowerer.Lowers (.integer first) := ⟨one, hone⟩
      have hsecond : lowerer.Lowers (.integer second) := ⟨other, hother⟩
      simp [Spec.Expr.operands, IntExpr.operands, hcondition, hfirst, hsecond]

theorem lowers_of_equation {equation : Equation} {lowered : Cond}
    (h : lowerer.equation equation = .ok lowered) :
    ∀ operand ∈ equation.sides, lowerer.Lowers operand := by
  cases equation with
  | integer left right =>
      rw [Lowerer.equation] at h
      split at h
      · cases h
      · obtain ⟨first, hfirst, h⟩ := bind_eq_ok.mp h
        obtain ⟨second, hsecond, _⟩ := bind_eq_ok.mp h
        have hleft : lowerer.Lowers (.integer left) := ⟨first, hfirst⟩
        have hright : lowerer.Lowers (.integer right) := ⟨second, hsecond⟩
        simp [Equation.sides, hleft, hright]
  | boolean left right =>
      obtain ⟨one, hone, h⟩ := bind_eq_ok.mp h
      obtain ⟨_, _, h⟩ := bind_eq_ok.mp h
      obtain ⟨other, hother, _⟩ := bind_eq_ok.mp h
      have hleft : lowerer.Lowers (.boolean left) := ⟨one, hone⟩
      have hright : lowerer.Lowers (.boolean right) := ⟨other, hother⟩
      simp [Equation.sides, hleft, hright]
  | byteString | contract => cases h

-- Only what a range fact is about need not be lowered for a truth to be.
theorem reaches_of_cond {whole : Spec.Expr} {value : BoolExpr} {lowered : Cond}
    (hwhole : (Spec.Expr.boolean value).OccursIn whole) (h : lowerer.cond value = .ok lowered) :
    ∀ operand ∈ (Spec.Expr.boolean value).operands, Reaches lowerer whole operand := by
  cases value with
  | lit => simp [Spec.Expr.operands, BoolExpr.operands]
  | join op left right =>
      obtain ⟨first, hfirst, h⟩ := bind_eq_ok.mp h
      obtain ⟨second, hsecond, _⟩ := bind_eq_ok.mp h
      have hleft : Reaches lowerer whole (.boolean left) := .lowered ⟨first, hfirst⟩
      have hright : Reaches lowerer whole (.boolean right) := .lowered ⟨second, hsecond⟩
      simp [Spec.Expr.operands, BoolExpr.operands, hleft, hright]
  | neg value =>
      obtain ⟨inner, hinner, _⟩ := bind_eq_ok.mp h
      have hvalue : Reaches lowerer whole (.boolean value) := .lowered ⟨inner, hinner⟩
      simp [Spec.Expr.operands, BoolExpr.operands, hvalue]
  | compare op left right =>
      rw [cond] at h
      split at h
      · cases h
      · obtain ⟨first, hfirst, h⟩ := bind_eq_ok.mp h
        obtain ⟨second, hsecond, _⟩ := bind_eq_ok.mp h
        have hleft : Reaches lowerer whole (.integer left) := .lowered ⟨first, hfirst⟩
        have hright : Reaches lowerer whole (.integer right) := .lowered ⟨second, hsecond⟩
        simp [Spec.Expr.operands, BoolExpr.operands, hleft, hright]
  | eq equation => exact fun operand hoperand => .lowered (lowers_of_equation h operand hoperand)
  | neq equation =>
      obtain ⟨inner, hinner, _⟩ := bind_eq_ok.mp h
      exact fun operand hoperand => .lowered (lowers_of_equation hinner operand hoperand)
  | inRange type value =>
      rw [cond] at h
      split at h
      · have hvalue : Reaches lowerer whole (.integer value) :=
          .ranged hwhole (fun _ hpart => hpart) h
        simp [Spec.Expr.operands, BoolExpr.operands, hvalue]
      · cases h

-- A single operation on lowered operands is lowered too, but for a difference in a signed type,
-- which is told from the operands alone.
theorem lowers_of_arithmeticRange {type : AbiType} {width : Nat} {op : Arithmetic}
    {first second : Machine.Expr} {result : Except VerificationError Machine.Expr} {lowered : Cond}
    (h : arithmeticRange type width op first second result = .ok lowered) :
    (op = .sub ∧ type.isSigned = true) ∨ ∃ term, result = .ok term := by
  unfold arithmeticRange at h
  split at h
  · next hsub =>
      rw [Bool.and_eq_true, decide_eq_true_eq] at hsub
      exact .inl hsub
  · obtain ⟨term, hterm, _⟩ := bind_eq_ok.mp h
    exact .inr ⟨term, hterm⟩

theorem reaches_of_operand {whole : Spec.Expr} {type : AbiType} {fact value : IntExpr}
    {term : Machine.Expr} (hfact : (Spec.Expr.boolean (.inRange type fact)).OccursIn whole)
    (hjudged : value ∈ fact.judged type)
    (h : lowerer.operand value (lowerer.expr value) = .ok term) :
    Reaches lowerer whole (.integer value) := by
  unfold operand at h
  cases hreplaced : lowerer.replacement? value with
  | none =>
      rw [hreplaced] at h
      exact .lowered ⟨term, h⟩
  | some update =>
      obtain ⟨item, rfl, hupdate⟩ := replacement?_eq_some hreplaced
      exact .replaced hfact hjudged hupdate

theorem reaches_of_range {whole : Spec.Expr} {type : AbiType} {width : Nat} {fact value : IntExpr}
    {lowered : Cond} (hfact : (Spec.Expr.boolean (.inRange type fact)).OccursIn whole)
    (hjudged : ∀ part ∈ value.judged type, part ∈ fact.judged type)
    (h : lowerer.range type width value = .ok lowered) :
    ∀ operand ∈ (Spec.Expr.integer value).operands, Reaches lowerer whole operand := by
  cases value with
  | lit | var | env | entry => exact fun _ hoperand => nomatch hoperand
  | arithmetic op left right =>
      obtain ⟨_, _, first, second, hfirst, hsecond, h⟩ := range_arithmetic_eq_ok.mp h
      rcases lowers_of_arithmeticRange h with ⟨rfl, hsigned⟩ | ⟨term, hterm⟩
      · simp only [IntExpr.judged, hsigned, if_true, List.forall_mem_cons] at hjudged
        have hleft := reaches_of_operand hfact hjudged.1 hfirst
        have hright := reaches_of_operand hfact hjudged.2.1 hsecond
        simp [Spec.Expr.operands, IntExpr.operands, hleft, hright]
      · have hlowers : lowerer.expr (.arithmetic op left right) = .ok term := hterm
        exact fun operand hoperand => .lowered (lowers_of_expr hlowers operand hoperand)
  | ite condition first second =>
      obtain ⟨truth, htruth, h⟩ := bind_eq_ok.mp h
      obtain ⟨one, hone, h⟩ := bind_eq_ok.mp h
      obtain ⟨other, hother, _⟩ := bind_eq_ok.mp h
      simp only [IntExpr.judged, List.forall_mem_append] at hjudged
      have hcondition : Reaches lowerer whole (.boolean condition) := .lowered ⟨truth, htruth⟩
      have hfirst : Reaches lowerer whole (.integer first) := .ranged hfact hjudged.1 hone
      have hsecond : Reaches lowerer whole (.integer second) := .ranged hfact hjudged.2 hother
      simp [Spec.Expr.operands, IntExpr.operands, hcondition, hfirst, hsecond]

-- From an expression to what stands directly within it.
theorem Reaches.operand {whole part operand : Spec.Expr} (h : Reaches lowerer whole part)
    (hpart : part.OccursIn whole) (hoperand : operand ∈ part.operands) :
    Reaches lowerer whole operand := by
  cases h with
  | lowered h =>
      cases part with
      | integer value =>
          obtain ⟨term, hterm⟩ := h
          exact .lowered (lowers_of_expr hterm operand hoperand)
      | boolean value =>
          obtain ⟨lowered, hlowered⟩ := h
          exact reaches_of_cond hpart hlowered operand hoperand
      | byteString | contract => exact h.elim
  | ranged hfact hjudged h => exact reaches_of_range hfact hjudged h operand hoperand
  | replaced => exact nomatch hoperand

theorem reaches_of_occursIn {whole part : Spec.Expr} (hwhole : lowerer.Lowers whole)
    (h : part.OccursIn whole) : Reaches lowerer whole part := by
  induction h using Relation.ReflTransGen.head_induction_on with
  | refl => exact .lowered hwhole
  | head hoperand hrest ih => exact ih.operand hrest hoperand

theorem located_of_read {timing : Timing} {term : Machine.Expr}
    (h : lowerer.read timing item = .ok term) : ∃ stored, lowerer.resolver.Locates item stored := by
  obtain ⟨slot, hslot, _⟩ := bind_eq_ok.mp h
  obtain ⟨stored, hlocates, _⟩ := slot_eq_ok_iff.mp hslot
  exact ⟨stored, hlocates⟩

-- A range fact within the expression is decided by the new value of a variable, which is looked up
-- under the name of the item and nothing else.
structure Replaced (updated : String → Prop) (whole : Spec.Expr) (timing : Timing)
    (item : StorageItem) : Prop where
  after : timing = .post
  updated : updated item.name
  judged : ∃ type fact, (Spec.Expr.boolean (.inRange type fact)).OccursIn whole ∧
    .entry .post item ∈ fact.judged type

-- Every item that occurs in a lowered expression is located, unless it is replaced in a range fact.
theorem located_or_replaced {whole : Spec.Expr} {timing : Timing} (hwhole : lowerer.Lowers whole)
    (h : (Spec.Expr.integer (.entry timing item)).OccursIn whole) :
    (∃ stored, lowerer.resolver.Locates item stored) ∨
      Replaced (fun name => (lowerer.update? name).isSome) whole timing item := by
  cases reaches_of_occursIn hwhole h with
  | lowered h =>
      obtain ⟨term, hterm⟩ := h
      exact .inl (located_of_read hterm)
  | @ranged type fact _ _ _ hfact hjudged h =>
      rw [range] at h
      split at h
      · next update hupdate =>
          obtain ⟨_, hsame, hupdate⟩ := replacement?_eq_some hupdate
          obtain ⟨rfl, rfl⟩ := IntExpr.entry.inj hsame
          exact .inr ⟨rfl, Option.isSome_of_eq_some hupdate, type, fact, hfact,
            hjudged _ (List.mem_singleton_self _)⟩
      · obtain ⟨term, hterm, _⟩ := bind_eq_ok.mp h
        exact .inl (located_of_read hterm)
  | @replaced _ type fact update hfact hjudged h =>
      exact .inr ⟨rfl, Option.isSome_of_eq_some h, type, fact, hfact, hjudged⟩

theorem lowers_of_conditions {preconditions : List BoolExpr} {conditions : List Cond}
    (h : lowerer.conditions preconditions = .ok conditions) :
    ∀ value ∈ preconditions, lowerer.Lowers (.boolean value) := by
  obtain ⟨lowered, hlowered, _⟩ := bind_eq_ok.mp h
  intro value hvalue
  obtain ⟨cond, _, hcond⟩ := (exists_of_forall₂ (mapM_eq_ok.mp hlowered)).1 value hvalue
  exact ⟨cond, hcond⟩

-- Which storage is touched where updates and other expressions are lowered. The updates are written
-- in order to the slots of the variables that have the names of their targets, and what they read
-- is located. Elsewhere an item need not be if it is replaced.
structure Touches (resolver : Resolver) (updates : List StorageUpdate) (exprs : List Spec.Expr)
    (branch : Branch) : Prop where
  written : ∃ store, branch.entrypointStore? = some store ∧
    List.Forall₂ (fun update key => ∃ stored, resolver.Locates update.item stored ∧
      key = .lit stored.slot) updates store.writtenKeys.reverse
  before : ∀ update ∈ updates, ∀ timing item,
    (Spec.Expr.integer (.entry timing item)).OccursIn (.integer update.value) →
      ∃ stored, resolver.Locates item stored
  read : ∀ expr ∈ exprs, ∀ timing item,
    (Spec.Expr.integer (.entry timing item)).OccursIn expr →
      (∃ stored, resolver.Locates item stored) ∨
        Replaced (fun name => ∃ update ∈ updates, update.item.name = name) expr timing item

theorem touches_of_updates {updates : List StorageUpdate} {base store : Store}
    (hbase : base.writtenKeys = [])
    (hstore : (Lowerer.before resolver base).updates base updates = .ok store) {branch : Branch}
    (hbranch : branch.entrypointStore? = some store) {exprs : List Spec.Expr}
    (hexprs : ∀ expr ∈ exprs, ((Lowerer.before resolver base).withPost store updates).Lowers expr ∨
      ∃ update ∈ updates, expr = .integer update.value) :
    Touches resolver updates exprs branch := by
  have hbefore : ∀ update ∈ updates, ∀ timing item,
      (Spec.Expr.integer (.entry timing item)).OccursIn (.integer update.value) →
        ∃ stored, resolver.Locates item stored := by
    intro update hupdate timing item hoccurs
    obtain ⟨term, hterm⟩ := exists_expr_of_updates hstore update hupdate
    have hlowers : (Lowerer.before resolver base).Lowers (.integer update.value) := ⟨term, hterm⟩
    rcases located_or_replaced hlowers hoccurs with hlocated | hreplaced
    · exact hlocated
    · exact nomatch hreplaced.updated
  constructor
  case written =>
    obtain ⟨keys, hkeys, htargets⟩ := writtenKeys_of_updates hstore
    rw [hbase, List.append_nil] at hkeys
    exact ⟨store, hbranch, by rw [hkeys, List.reverse_reverse]; exact htargets⟩
  case before => exact hbefore
  case read =>
    intro expr hexpr timing item hoccurs
    rcases hexprs expr hexpr with hlowers | ⟨update, hupdate, rfl⟩
    · refine (located_or_replaced hlowers hoccurs).imp_right fun hreplaced => ?_
      obtain ⟨lowered, hlowered⟩ := Option.isSome_iff_exists.mp hreplaced.updated
      rw [update?_withPost] at hlowered
      obtain ⟨update, hlast, _⟩ := Option.map_eq_some_iff.mp hlowered
      exact ⟨hreplaced.after, ⟨update, mem_of_lastUpdate? hlast, name_of_lastUpdate? hlast⟩,
        hreplaced.judged⟩
    · exact .inl (hbefore update hupdate timing item hoccurs)

theorem touches_of_behaviourBranch {behaviour : Behaviour} {branch : Branch}
    (h : behaviourBranch resolver behaviour = .ok branch) :
    Touches resolver behaviour.storageUpdates behaviour.exprs branch := by
  obtain ⟨store, conditions, returned, hstore, hconditions, hreturned, rfl⟩ :=
    behaviourBranch_eq_ok.mp h
  refine touches_of_updates rfl hstore (entrypointStore?_ofStore conditions returned store) ?_
  intro expr hexpr
  simp only [Behaviour.exprs, List.mem_append, List.mem_map, Option.mem_toList] at hexpr
  rcases hexpr with ⟨value, hvalue, rfl⟩ | ⟨update, hupdate, rfl⟩ | ⟨value, hvalue, rfl⟩
  · exact .inl (lowers_of_conditions hconditions value hvalue)
  · exact .inr ⟨update, hupdate, rfl⟩
  · rw [hvalue] at hreturned
    obtain ⟨term, hterm, _⟩ := hreturned
    exact .inl ⟨term, hterm⟩

theorem touches_of_constructorBranch {constructor : Constructor} {code : List UInt8}
    {branch : Branch} (h : constructorBranch resolver constructor code = .ok branch) :
    Touches resolver constructor.initialStorage constructor.exprs branch := by
  obtain ⟨store, conditions, hstore, hconditions, rfl⟩ := constructorBranch_eq_ok.mp h
  refine touches_of_updates rfl hstore
    (entrypointStore?_ofStore conditions (.concrete code) store) ?_
  intro expr hexpr
  simp only [Constructor.exprs, List.mem_append, List.mem_map] at hexpr
  rcases hexpr with ⟨value, hvalue, rfl⟩ | ⟨update, hupdate, rfl⟩
  · exact .inl (lowers_of_conditions hconditions value hvalue)
  · exact .inr ⟨update, hupdate, rfl⟩

-- What is lowered touches no storage but that of declared variables, found under their names. The
-- slot of a located item need not resolve to it: it does exactly if the variable fills the slot
-- alone with a value of the type of the item.
theorem lowered_storage_located (resolver : Resolver) :
    (∀ behaviour branch, behaviourBranch resolver behaviour = .ok branch →
      Touches resolver behaviour.storageUpdates behaviour.exprs branch) ∧
    (∀ constructor code branch, constructorBranch resolver constructor code = .ok branch →
      Touches resolver constructor.initialStorage constructor.exprs branch) ∧
    ∀ item stored, resolver.Locates item stored →
      (∀ lowerer : Lowerer, lowerer.resolver = resolver → lowerer.slot item = .ok stored.slot) ∧
      (resolver.resolve stored.slot = .ok item ↔
        (∀ other ∈ resolver.layout.declarations, other.slot = stored.slot → other = stored) ∧
          stored.offset = 0 ∧ stored.type = .value item.type ∧ item.type.isElementary = true) := by
  refine ⟨fun _ _ => touches_of_behaviourBranch, fun _ _ _ => touches_of_constructorBranch,
    fun item stored h => ⟨?_, h.resolve_iff⟩⟩
  rintro lowerer rfl
  exact slot_eq_ok_iff.mpr ⟨stored, h, rfl⟩

-- An owner shares its slot with a flag, and shares are kept in a mapping.
def lockerResolver : Resolver where
  contract := "Locker"
  layout := ⟨[.ofValue "total" 0 .uint256, .ofValue "owner" 1 .address,
    ⟨"open", 1, 20, .value .bool⟩, ⟨"shares", 2, 0, .mapping [.address] .uint256⟩]⟩
  names_nodup := by decide
  positions_nodup := by decide

def lockerTotal : StorageItem := ⟨"Locker", "total", .uint256⟩

def lockerOpen : StorageItem := ⟨"Locker", "open", .bool⟩

def lockerShares : StorageItem := ⟨"Locker", "shares", .uint256⟩

def foreignTotal : StorageItem := ⟨"Ledger", "total", .uint256⟩

-- Reads the flag, writes the mapping, and states a range fact about another contract.
def lockerAudit : Behaviour where
  name := "audit"
  contract := "Locker"
  interface := ⟨"audit", []⟩
  branch := 0
  preconditions := [.inRange .uint256 (.post foreignTotal)]
  storageUpdates := [⟨lockerTotal, .pre lockerOpen⟩, ⟨lockerShares, .lit 0⟩]
  returns := none

-- The flag is read as the word of the whole slot and the mapping written as one word.
def lockerAuditBranch : Branch := .ofStore [] .empty
  (.write (.lit 2) (.lit 0) (.write (.lit 0) (.sload (.lit 1) .abstract) .abstract))

theorem locker_audit_unresolvable :
    behaviourBranch lockerResolver lockerAudit = .ok lockerAuditBranch ∧
      (∃ names, lockerResolver.resolve 1 = .error (.packedSlot 1 names)) ∧
      lockerResolver.resolve 2 = .error (.mappingSlot 2 "shares") ∧
      (IntExpr.pre lockerOpen).MentionedIn lockerAudit.exprs ∧
      (IntExpr.post foreignTotal).MentionedIn lockerAudit.exprs ∧
      ∀ slot item, lockerResolver.resolve slot = .ok item →
        item ≠ lockerOpen ∧ item ≠ lockerShares ∧ item ≠ foreignTotal := by
  have hlisted : lockerResolver.resolvable = [(0, lockerTotal)] := by decide +kernel
  refine ⟨rfl, ⟨_, rfl⟩, rfl, ?_, ?_, fun slot item h => ?_⟩
  · refine ⟨.integer (.pre lockerOpen), ?_, .refl⟩
    decide
  · refine ⟨.boolean (.inRange .uint256 (.post foreignTotal)), ?_, .single ?_⟩
    · decide
    · decide
  · have hmem := (lockerResolver.mem_resolvable_iff slot item).mpr h
    rw [hlisted, List.mem_singleton] at hmem
    obtain ⟨_, rfl⟩ := Prod.mk.inj hmem
    decide

theorem lowered_storage_located_locker :
    behaviourBranch lockerResolver lockerAudit = .ok lockerAuditBranch ∧
      Touches lockerResolver lockerAudit.storageUpdates lockerAudit.exprs lockerAuditBranch ∧
      lockerResolver.resolve 0 = .ok lockerTotal := by
  have hlowered : behaviourBranch lockerResolver lockerAudit = .ok lockerAuditBranch := rfl
  obtain ⟨hbehaviours, _, hlocates⟩ := lowered_storage_located lockerResolver
  obtain ⟨_, hresolves⟩ := hlocates lockerTotal (.ofValue "total" 0 .uint256)
    ⟨rfl, List.mem_cons_self, rfl⟩
  exact ⟨hlowered, hbehaviours _ _ hlowered, hresolves.mpr (by decide)⟩

end Lowerer

end SpecRecovery
