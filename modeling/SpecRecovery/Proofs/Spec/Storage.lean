import SpecRecovery.Proofs.Layout.Resolution
import SpecRecovery.Proofs.Spec.Signedness
import SpecRecovery.Proofs.Table.Lookup

namespace SpecRecovery.Spec

variable {resolver : Resolver} {slot : Word} {item : StorageItem}

-- A resolved item has the value of the slot that it was resolved from.
theorem preValue_ofStorage (assignment : Assignment) (h : resolver.resolve slot = .ok item) :
    (Valuation.ofStorage assignment resolver).preValue item.name =
      interpret (assignment.storedValue slot) item.type := by
  have hnames : ((resolver.resolvable.map fun entry =>
      (entry.2.name, interpret (assignment.storedValue entry.1) entry.2.type)).map
        Prod.fst).Nodup := by
    simpa [Function.comp_def] using resolver.resolvable_names_nodup
  have hmem : (item.name, interpret (assignment.storedValue slot) item.type) ∈
      resolver.resolvable.map fun entry =>
        (entry.2.name, interpret (assignment.storedValue entry.1) entry.2.type) :=
    List.mem_map.mpr ⟨(slot, item), (resolver.mem_resolvable_iff slot item).mpr h, rfl⟩
  rw [Valuation.preValue, Valuation.ofStorage, Table.find?_ofList_of_mem hnames hmem]
  rfl

theorem word_pre_ofStorage (assignment : Assignment) (h : resolver.resolve slot = .ok item) :
    (IntExpr.pre item).word (Valuation.ofStorage assignment resolver) =
      assignment.storedValue slot := by
  rw [IntExpr.pre, IntExpr.word, Valuation.storedValue, preValue_ofStorage assignment h,
    wrap_interpret]

-- Whatever a transition starts from inhabits its declared type: the arguments, the environment and
-- the stored variables with a slot for themselves.
structure Valuation.WellTyped (valuation : Valuation) (resolver : Resolver)
    (interface : Interface) : Prop where
  arguments : ∀ argument ∈ interface.arguments, argument.type.integerRange.isSome = true →
    argument.type.holds (interpret (valuation.variableWord argument.name) argument.type) = true
  environment : ∀ value : Environment,
    value.type.holds (valuation.environmentWord value).toInteger = true
  stored : ∀ slot item, (slot, item) ∈ resolver.resolvable →
    item.type.integerRange.isSome = true → item.type.holds (valuation.preValue item.name) = true

-- The two valuations differ at most in the state after a transition.
def SameBefore (valuation other : Valuation) : Prop :=
  valuation.calldata = other.calldata ∧ valuation.environment = other.environment ∧
    valuation.pre = other.pre

-- Expressions about the state before have the same values in both.
mutual

theorem IntExpr.eval_congr {valuation other : Valuation} {vocabulary : Vocabulary}
    (hbefore : ∀ timing item, vocabulary.atom (.entry timing item) → timing = .pre)
    (hsame : SameBefore valuation other) : (expr : IntExpr) → expr.BuiltFrom vocabulary →
    expr.eval valuation = expr.eval other
  | .lit _, _ => rfl
  | .var name type, _ => by rw [IntExpr.eval, IntExpr.eval, hsame.1]
  | .env value, _ => by rw [IntExpr.eval, IntExpr.eval, hsame.2.1]
  | .entry timing item, hbuilt => by
      obtain rfl := hbefore timing item hbuilt
      rw [IntExpr.eval, IntExpr.eval, Valuation.preValue, Valuation.preValue, hsame.2.2]
  | .arithmetic op left right, hbuilt => by
      have hl := IntExpr.eval_congr hbefore hsame left hbuilt.1
      have hr := IntExpr.eval_congr hbefore hsame right hbuilt.2
      cases op <;> rw [IntExpr.eval, IntExpr.eval, hl, hr]
  | .ite condition first second, hbuilt => by
      rw [IntExpr.eval, IntExpr.eval, BoolExpr.eval_congr hbefore hsame condition hbuilt.1,
        IntExpr.eval_congr hbefore hsame first hbuilt.2.1,
        IntExpr.eval_congr hbefore hsame second hbuilt.2.2]

theorem BoolExpr.eval_congr {valuation other : Valuation} {vocabulary : Vocabulary}
    (hbefore : ∀ timing item, vocabulary.atom (.entry timing item) → timing = .pre)
    (hsame : SameBefore valuation other) : (expr : BoolExpr) → expr.BuiltFrom vocabulary →
    expr.eval valuation = expr.eval other
  | .lit _, _ => rfl
  | .join op left right, hbuilt => by
      rw [BoolExpr.eval, BoolExpr.eval, BoolExpr.eval_congr hbefore hsame left hbuilt.1,
        BoolExpr.eval_congr hbefore hsame right hbuilt.2]
  | .neg value, hbuilt => by
      rw [BoolExpr.eval, BoolExpr.eval, BoolExpr.eval_congr hbefore hsame value hbuilt]
  | .compare op left right, hbuilt => by
      rw [BoolExpr.eval, BoolExpr.eval, IntExpr.eval_congr hbefore hsame left hbuilt.1,
        IntExpr.eval_congr hbefore hsame right hbuilt.2]
  | .eq equation, hbuilt => by
      rw [BoolExpr.eval, BoolExpr.eval, Equation.eval_congr hbefore hsame equation hbuilt]
  | .neq equation, hbuilt => by
      rw [BoolExpr.eval, BoolExpr.eval, Equation.eval_congr hbefore hsame equation hbuilt]
  | .inRange type value, hbuilt => by
      rw [BoolExpr.eval, BoolExpr.eval, IntExpr.eval_congr hbefore hsame value hbuilt.1]

theorem Equation.eval_congr {valuation other : Valuation} {vocabulary : Vocabulary}
    (hbefore : ∀ timing item, vocabulary.atom (.entry timing item) → timing = .pre)
    (hsame : SameBefore valuation other) : (equation : Equation) →
    equation.BuiltFrom vocabulary → equation.eval valuation = equation.eval other
  | .integer left right, hbuilt => by
      rw [Equation.eval, Equation.eval, IntExpr.eval_congr hbefore hsame left hbuilt.1,
        IntExpr.eval_congr hbefore hsame right hbuilt.2]
  | .boolean left right, hbuilt => by
      rw [Equation.eval, Equation.eval, BoolExpr.eval_congr hbefore hsame left hbuilt.1,
        BoolExpr.eval_congr hbefore hsame right hbuilt.2]
  | .byteString _ _, _ => rfl
  | .contract _ _, _ => rfl

end

end SpecRecovery.Spec
