import SpecRecovery.Lifting.Lifter
import SpecRecovery.Proofs.Lifting.Check
import SpecRecovery.Proofs.Result

namespace SpecRecovery.Lifter

open Machine Spec

-- Which expressions stand for a machine word. All that lifting can do to one node is said here.
inductive Lifts (lifter : Lifter) : Machine.Expr → IntExpr → Prop
  | idiom {idiom : Idiom} {term left right : Machine.Expr} {first second : IntExpr}
      (hshape : idiom.operandsOfExpr? term = some (left, right))
      (hleft : Lifts lifter left first) (hfirst : isUnsigned first = true)
      (hright : Lifts lifter right second) (hsecond : isUnsigned second = true) :
      Lifts lifter term (.ofBool (idiom.conclusion first second))
  | lit (value : Word) : Lifts lifter (.lit value) (.lit value.toInteger)
  | var {name : String} {argument : Argument}
      (h : lifter.interface.argument? name = some argument)
      (helementary : argument.type.isElementary = true) :
      Lifts lifter (.var name) (.var name argument.type)
  | env (value : Environment) : Lifts lifter (.env value) (.env value)
  | arithmetic {op : Arithmetic} {left right : Machine.Expr} {first second : IntExpr}
      (hleft : Lifts lifter left first) (hright : Lifts lifter right second)
      (hsigned : op.readsUnsigned = true →
        first.mentionsSigned = false ∧ second.mentionsSigned = false) :
      Lifts lifter (.binary (.arithmetic op) left right) (.arithmetic op first second)
  | compare {op : Comparison} {left right : Machine.Expr} {first second : IntExpr}
      (hleft : Lifts lifter left first) (hright : Lifts lifter right second)
      (hsigned : first.mentionsSigned = false ∧ second.mentionsSigned = false) :
      Lifts lifter (.binary (.compare op) left right) (.ofBool (.compare op first second))
  | eq {left right : Machine.Expr} {first second : IntExpr}
      (hleft : Lifts lifter left first) (hright : Lifts lifter right second)
      (hequatable : first.equatable second = true) :
      Lifts lifter (.binary .eq left right) (.ofBool (.intEq first second))
  | isZero {number : Machine.Expr} {value : IntExpr} (h : Lifts lifter number value) :
      Lifts lifter (.isZero number) (.ofBool (.intEq value (.lit 0)))
  | ite {condition first second : Machine.Expr} {truth one other : IntExpr}
      (hcondition : Lifts lifter condition truth) (hfirst : Lifts lifter first one)
      (hsecond : Lifts lifter second other) :
      Lifts lifter (.ite condition first second) (.ite (truthOf truth) one other)
  | read {slot : Word} {item : StorageItem} (h : lifter.resolver.resolve slot = .ok item) :
      Lifts lifter (.sload (.lit slot) .abstract) (.pre item)

-- The same for propositions.
inductive CondLifts (lifter : Lifter) : Cond → BoolExpr → Prop
  | idiom {idiom : Idiom} {cond : Cond} {left right : Machine.Expr} {first second : IntExpr}
      (hshape : idiom.operandsOfCond? cond = some (left, right))
      (hleft : Lifts lifter left first) (hfirst : isUnsigned first = true)
      (hright : Lifts lifter right second) (hsecond : isUnsigned second = true) :
      CondLifts lifter cond (idiom.conclusion first second)
  | bool (value : Bool) : CondLifts lifter (.bool value) (.lit value)
  | eq {left right : Machine.Expr} {first second : IntExpr}
      (hleft : Lifts lifter left first) (hright : Lifts lifter right second)
      (hequatable : first.equatable second = true) :
      CondLifts lifter (.eq (.word left) (.word right)) (.intEq first second)
  | compare {op : Comparison} {left right : Machine.Expr} {first second : IntExpr}
      (hleft : Lifts lifter left first) (hright : Lifts lifter right second)
      (hsigned : first.mentionsSigned = false ∧ second.mentionsSigned = false) :
      CondLifts lifter (.compare op left right) (.compare op first second)
  | neg {inner : Cond} {value : BoolExpr} (h : CondLifts lifter inner value) :
      CondLifts lifter (.neg inner) (.neg value)
  | join {op : Connective} {left right : Cond} {first second : BoolExpr}
      (hleft : CondLifts lifter left first) (hright : CondLifts lifter right second) :
      CondLifts lifter (.join op left right) (.join op first second)

variable {lifter : Lifter}

theorem lifts_argument {name : String} {expr : IntExpr} (h : lifter.argument name = .ok expr) :
    Lifts lifter (.var name) expr := by
  unfold argument at h
  split at h
  · exact nomatch h
  · next argument hargument =>
      split at h
      · next helementary =>
          obtain rfl := Except.ok.inj h
          exact .var hargument helementary
      · exact nomatch h

theorem lifts_read {key : Machine.Expr} {store : Store} {expr : IntExpr}
    (h : lifter.read key store = .ok expr) : Lifts lifter (.sload key store) expr := by
  unfold read at h
  split at h
  · obtain ⟨item, hitem, rfl⟩ := map_eq_ok.mp (mapError_eq_ok.mp h)
    exact .read hitem
  · exact nomatch h

theorem unsigned?_eq_some {expr answer : IntExpr} (h : unsigned? expr = some answer) :
    expr = answer ∧ isUnsigned answer = true := by
  unfold unsigned? at h
  split at h
  · next hunsigned => exact ⟨Option.some.inj h, Option.some.inj h ▸ hunsigned⟩
  · exact nomatch h

-- The operands of an idiom are lifted as all other words, and only some of these are accepted.
theorem lifts_operand {term : Machine.Expr} {expr : IntExpr}
    (h : lifter.operand? term = .ok (some expr)) :
    Lifts lifter term expr ∧ isUnsigned expr = true := by
  unfold operand? at h
  split at h
  · obtain ⟨rfl, hunsigned⟩ := unsigned?_eq_some (Except.ok.inj h)
    exact ⟨.lit _, hunsigned⟩
  · obtain ⟨found, hfound, hanswer⟩ := map_eq_ok.mp h
    obtain ⟨rfl, hunsigned⟩ := unsigned?_eq_some hanswer
    exact ⟨lifts_argument hfound, hunsigned⟩
  · obtain ⟨rfl, hunsigned⟩ := unsigned?_eq_some (Except.ok.inj h)
    exact ⟨.env _, hunsigned⟩
  · obtain ⟨found, hfound, hanswer⟩ := map_eq_ok.mp h
    obtain ⟨rfl, hunsigned⟩ := unsigned?_eq_some hanswer
    exact ⟨lifts_read hfound, hunsigned⟩
  · exact nomatch Except.ok.inj h

theorem unsigned?_of_isUnsigned {expr : IntExpr} (h : isUnsigned expr = true) :
    unsigned? expr = some expr := if_pos h

theorem argument_of_elementary {name : String} {argument : Argument}
    (h : lifter.interface.argument? name = some argument)
    (helementary : argument.type.isElementary = true) :
    lifter.argument name = .ok (.var name argument.type) := by
  rw [Lifter.argument, h]
  exact if_pos helementary

theorem read_of_resolve {slot : Word} {item : StorageItem}
    (h : lifter.resolver.resolve slot = .ok item) :
    lifter.read (.lit slot) .abstract = .ok (.pre item) := by
  rw [Lifter.read, h]
  rfl

-- All unsigned atoms that lifting knows are accepted.
theorem operand?_eq_some_iff {term : Machine.Expr} {expr : IntExpr} :
    lifter.operand? term = .ok (some expr) ↔ Lifts lifter term expr ∧ isUnsigned expr = true := by
  refine ⟨lifts_operand, fun ⟨hlifts, hunsigned⟩ => ?_⟩
  have haccepted := unsigned?_of_isUnsigned hunsigned
  cases hlifts with
  | lit | env => exact congrArg Except.ok haccepted
  | var h helementary =>
      rw [operand?, argument_of_elementary h helementary]
      exact congrArg Except.ok haccepted
  | read h =>
      rw [operand?, read_of_resolve h]
      exact congrArg Except.ok haccepted
  | _ => exact nomatch hunsigned

theorem operands?_eq_some_iff {left right : Machine.Expr} {first second : IntExpr} :
    lifter.operands? (left, right) = .ok (some (first, second)) ↔
      lifter.operand? left = .ok (some first) ∧ lifter.operand? right = .ok (some second) := by
  constructor
  · intro h
    unfold operands? at h
    obtain ⟨answer, hanswer, h⟩ := bind_eq_ok.mp h
    cases answer with
    | none => exact nomatch Except.ok.inj h
    | some one =>
        obtain ⟨other, hother, h⟩ := bind_eq_ok.mp h
        obtain ⟨held, rfl, hpair⟩ := Option.map_eq_some_iff.mp (Except.ok.inj h)
        obtain ⟨rfl, rfl⟩ := Prod.mk.inj hpair
        exact ⟨hanswer, hother⟩
  · rintro ⟨hleft, hright⟩
    rw [operands?, hleft]
    change (lifter.operand? right >>= _) = _
    rw [hright]
    rfl

theorem exists_of_firstAnswer? {α : Type} {ask : Idiom → Except LiftingError (Option α)}
    {idioms : List Idiom} {answer : α} (h : firstAnswer? ask idioms = .ok (some answer)) :
    ∃ idiom ∈ idioms, ask idiom = .ok (some answer) := by
  induction idioms with
  | nil => exact nomatch Except.ok.inj h
  | cons idiom rest ih =>
      rw [firstAnswer?] at h
      obtain ⟨found, hfound, h⟩ := bind_eq_ok.mp h
      cases found with
      | some held =>
          obtain rfl := Option.some.inj (Except.ok.inj h)
          exact ⟨idiom, List.mem_cons_self, hfound⟩
      | none =>
          obtain ⟨other, hmem, hother⟩ := ih h
          exact ⟨other, List.mem_cons_of_mem _ hmem, hother⟩

-- What an idiom recognises: the checks of its operation on two accepted operands.
theorem exprByIdiom?_eq_some_iff {idiom : Idiom} {term : Machine.Expr} {expr : IntExpr} :
    lifter.exprByIdiom? idiom term = .ok (some expr) ↔
      ∃ left right first second, idiom.ChecksExpr left right term ∧
        lifter.operand? left = .ok (some first) ∧ lifter.operand? right = .ok (some second) ∧
        .ofBool (idiom.conclusion first second) = expr := by
  constructor
  · intro h
    unfold exprByIdiom? at h
    split at h
    · exact nomatch Except.ok.inj h
    · next operands hshape =>
        obtain ⟨lifted, hlifted, h⟩ := map_eq_ok.mp h
        obtain ⟨⟨first, second⟩, rfl, rfl⟩ := Option.map_eq_some_iff.mp h
        obtain ⟨hleft, hright⟩ := operands?_eq_some_iff.mp hlifted
        exact ⟨_, _, first, second, Idiom.operandsOfExpr?_eq_some_iff.mp hshape, hleft, hright, rfl⟩
  · rintro ⟨left, right, first, second, hchecks, hleft, hright, rfl⟩
    rw [exprByIdiom?, Idiom.operandsOfExpr?_eq_some_iff.mpr hchecks]
    exact map_eq_ok.mpr ⟨_, operands?_eq_some_iff.mpr ⟨hleft, hright⟩, rfl⟩

theorem condByIdiom?_eq_some_iff {idiom : Idiom} {cond : Cond} {prop : BoolExpr} :
    lifter.condByIdiom? idiom cond = .ok (some prop) ↔
      ∃ left right first second, idiom.ChecksCond left right cond ∧
        lifter.operand? left = .ok (some first) ∧ lifter.operand? right = .ok (some second) ∧
        idiom.conclusion first second = prop := by
  constructor
  · intro h
    unfold condByIdiom? at h
    split at h
    · exact nomatch Except.ok.inj h
    · next operands hshape =>
        obtain ⟨lifted, hlifted, h⟩ := map_eq_ok.mp h
        obtain ⟨⟨first, second⟩, rfl, rfl⟩ := Option.map_eq_some_iff.mp h
        obtain ⟨hleft, hright⟩ := operands?_eq_some_iff.mp hlifted
        exact ⟨_, _, first, second, Idiom.operandsOfCond?_eq_some_iff.mp hshape, hleft, hright, rfl⟩
  · rintro ⟨left, right, first, second, hchecks, hleft, hright, rfl⟩
    rw [condByIdiom?, Idiom.operandsOfCond?_eq_some_iff.mpr hchecks]
    exact map_eq_ok.mpr ⟨_, operands?_eq_some_iff.mpr ⟨hleft, hright⟩, rfl⟩

theorem lifts_of_exprByIdiom? {idiom : Idiom} {term : Machine.Expr} {expr : IntExpr}
    (h : lifter.exprByIdiom? idiom term = .ok (some expr)) : Lifts lifter term expr := by
  obtain ⟨left, right, first, second, hchecks, hleft, hright, rfl⟩ :=
    exprByIdiom?_eq_some_iff.mp h
  obtain ⟨hleft, hfirst⟩ := lifts_operand hleft
  obtain ⟨hright, hsecond⟩ := lifts_operand hright
  exact .idiom (Idiom.operandsOfExpr?_eq_some_iff.mpr hchecks) hleft hfirst hright hsecond

theorem condLifts_of_condByIdiom? {idiom : Idiom} {cond : Cond} {expr : BoolExpr}
    (h : lifter.condByIdiom? idiom cond = .ok (some expr)) : CondLifts lifter cond expr := by
  obtain ⟨left, right, first, second, hchecks, hleft, hright, rfl⟩ :=
    condByIdiom?_eq_some_iff.mp h
  obtain ⟨hleft, hfirst⟩ := lifts_operand hleft
  obtain ⟨hright, hsecond⟩ := lifts_operand hright
  exact .idiom (Idiom.operandsOfCond?_eq_some_iff.mpr hchecks) hleft hfirst hright hsecond

theorem lifts_of_expr {term : Machine.Expr} {expr : IntExpr} (h : lifter.expr term = .ok expr) :
    Lifts lifter term expr := by
  induction term using Lifter.expr.induct generalizing expr with
  | case1 term ih =>
      unfold Lifter.expr at h
      obtain ⟨answer, hanswer, h⟩ := bind_eq_ok.mp h
      cases answer with
      | some found =>
          obtain rfl := Except.ok.inj h
          obtain ⟨idiom, _, hidiom⟩ := exists_of_firstAnswer? hanswer
          exact lifts_of_exprByIdiom? hidiom
      | none =>
          cases term with
          | lit value =>
              obtain rfl := Except.ok.inj h
              exact .lit value
          | var name => exact lifts_argument h
          | env value =>
              obtain rfl := Except.ok.inj h
              exact .env value
          | selector => exact nomatch h
          | binary op left right =>
              cases op with
              | arithmetic op =>
                  obtain ⟨first, hfirst, h⟩ := bind_eq_ok.mp h
                  obtain ⟨second, hsecond, h⟩ := bind_eq_ok.mp h
                  split at h
                  · exact nomatch h
                  · next hsigned =>
                      obtain rfl := Except.ok.inj h
                      refine .arithmetic (ih.1 hfirst) (ih.2 hsecond) fun hop => ?_
                      simpa [hop] using hsigned
              | compare op =>
                  obtain ⟨first, hfirst, h⟩ := bind_eq_ok.mp h
                  obtain ⟨second, hsecond, h⟩ := bind_eq_ok.mp h
                  split at h
                  · exact nomatch h
                  · next hsigned =>
                      obtain rfl := Except.ok.inj h
                      exact .compare (ih.1 hfirst) (ih.2 hsecond) (by simpa using hsigned)
              | eq =>
                  obtain ⟨first, hfirst, h⟩ := bind_eq_ok.mp h
                  obtain ⟨second, hsecond, h⟩ := bind_eq_ok.mp h
                  split at h
                  · next hequatable =>
                      obtain rfl := Except.ok.inj h
                      exact .eq (ih.1 hfirst) (ih.2 hsecond) hequatable
                  · exact nomatch h
              | and | or | xor | extendSign => exact nomatch h
          | isZero number =>
              obtain ⟨value, hvalue, h⟩ := bind_eq_ok.mp h
              obtain rfl := Except.ok.inj h
              exact .isZero (ih hvalue)
          | not value => exact nomatch h
          | ite condition first second =>
              obtain ⟨truth, htruth, h⟩ := bind_eq_ok.mp h
              obtain ⟨one, hone, h⟩ := bind_eq_ok.mp h
              obtain ⟨other, hother, h⟩ := bind_eq_ok.mp h
              obtain rfl := Except.ok.inj h
              exact .ite (ih.1 htruth) (ih.2.1 hone) (ih.2.2 hother)
          | sload key store => exact lifts_read h
          | keccak data => exact nomatch h

theorem condLifts_of_cond {cond : Cond} {expr : BoolExpr} (h : lifter.cond cond = .ok expr) :
    CondLifts lifter cond expr := by
  induction cond using Lifter.cond.induct generalizing expr with
  | case1 cond ih =>
      unfold Lifter.cond at h
      obtain ⟨answer, hanswer, h⟩ := bind_eq_ok.mp h
      cases answer with
      | some found =>
          obtain rfl := Except.ok.inj h
          obtain ⟨idiom, _, hidiom⟩ := exists_of_firstAnswer? hanswer
          exact condLifts_of_condByIdiom? hidiom
      | none =>
          cases cond with
          | bool value =>
              obtain rfl := Except.ok.inj h
              exact .bool value
          | eq left right =>
              cases left with
              | word left =>
                  cases right with
                  | word right =>
                      obtain ⟨first, hfirst, h⟩ := bind_eq_ok.mp h
                      obtain ⟨second, hsecond, h⟩ := bind_eq_ok.mp h
                      split at h
                      · next hequatable =>
                          obtain rfl := Except.ok.inj h
                          exact .eq (lifts_of_expr hfirst) (lifts_of_expr hsecond) hequatable
                      · exact nomatch h
                  | buffer | store => exact nomatch h
              | buffer | store => exact nomatch h
          | compare op left right =>
              obtain ⟨first, hfirst, h⟩ := bind_eq_ok.mp h
              obtain ⟨second, hsecond, h⟩ := bind_eq_ok.mp h
              split at h
              · exact nomatch h
              · next hsigned =>
                  obtain rfl := Except.ok.inj h
                  exact .compare (lifts_of_expr hfirst) (lifts_of_expr hsecond)
                    (by simpa using hsigned)
          | neg inner =>
              obtain ⟨value, hvalue, h⟩ := bind_eq_ok.mp h
              obtain rfl := Except.ok.inj h
              exact .neg (ih hvalue)
          | join op left right =>
              obtain ⟨first, hfirst, h⟩ := bind_eq_ok.mp h
              obtain ⟨second, hsecond, h⟩ := bind_eq_ok.mp h
              obtain rfl := Except.ok.inj h
              exact .join (ih.1 hfirst) (ih.2 hsecond)

end SpecRecovery.Lifter
