import SpecRecovery.Proofs.Lifting.Overflow

namespace SpecRecovery.Lifter

open Machine Spec

-- The same lifter with other idioms to look for.
def withIdioms (lifter : Lifter) (idioms : Idioms) : Lifter := { lifter with idioms }

-- Two propositions have the same truth in every state or, where one has none, the same failure.
def SameMeaning (lifter : Lifter) (prop other : BoolExpr) : Prop :=
  ∀ assignment, prop.eval (.ofStorage assignment lifter.resolver) =
    other.eval (.ofStorage assignment lifter.resolver)

variable {lifter : Lifter} {idiom : Idiom} {term : Machine.Expr} {cond : Cond} {expr : IntExpr}
  {prop : BoolExpr}

section FirstAnswer

variable {α : Type} {ask : Idiom → Except LiftingError (Option α)}

theorem firstAnswer?_eq_none {idioms : List Idiom} (h : ∀ idiom, ask idiom = .ok none) :
    firstAnswer? ask idioms = .ok none := by
  induction idioms with
  | nil => rfl
  | cons idiom rest ih =>
      rw [firstAnswer?, h idiom]
      exact ih

theorem exists_firstAnswer? {idioms : List Idiom} (h : ∀ idiom, ∃ answer, ask idiom = .ok answer) :
    ∃ answer, firstAnswer? ask idioms = .ok answer := by
  induction idioms with
  | nil => exact ⟨none, rfl⟩
  | cons idiom rest ih =>
      obtain ⟨answer, hanswer⟩ := h idiom
      rw [firstAnswer?, hanswer]
      cases answer with
      | none => exact ih
      | some found => exact ⟨some found, rfl⟩

-- Where at most one idiom has anything to say, the order does not matter.
theorem firstAnswer?_perm {first second : List Idiom} (h : first.Perm second)
    (hunique : ∀ one other, ask one ≠ .ok none → ask other ≠ .ok none → one = other) :
    firstAnswer? ask first = firstAnswer? ask second := by
  induction h with
  | nil => rfl
  | cons idiom _ ih => rw [firstAnswer?, firstAnswer?, ih]
  | swap one other rest =>
      by_cases hone : ask one = .ok none
      · simp only [firstAnswer?, hone]
        rfl
      · by_cases hother : ask other = .ok none
        · simp only [firstAnswer?, hother]
          rfl
        · rw [hunique one other hone hother]
  | trans _ _ ihf ihs => rw [ihf, ihs]

end FirstAnswer

-- An idiom has nothing to say about what does not check its operation.
theorem exprByIdiom?_eq_none (h : ∀ left right, ¬idiom.ChecksExpr left right term) :
    lifter.exprByIdiom? idiom term = .ok none := by
  have hshape : idiom.operandsOfExpr? term = none :=
    Option.eq_none_iff_forall_ne_some.mpr fun (left, right) hoperands =>
      h left right (Idiom.operandsOfExpr?_eq_some_iff.mp hoperands)
  rw [exprByIdiom?, hshape]

theorem condByIdiom?_eq_none (h : ∀ left right, ¬idiom.ChecksCond left right cond) :
    lifter.condByIdiom? idiom cond = .ok none := by
  have hshape : idiom.operandsOfCond? cond = none :=
    Option.eq_none_iff_forall_ne_some.mpr fun (left, right) hoperands =>
      h left right (Idiom.operandsOfCond?_eq_some_iff.mp hoperands)
  rw [condByIdiom?, hshape]

theorem exprByIdiom?_unique {other : Idiom} (h : lifter.exprByIdiom? idiom term ≠ .ok none)
    (hother : lifter.exprByIdiom? other term ≠ .ok none) : idiom = other := by
  by_contra hdistinct
  refine h (exprByIdiom?_eq_none fun left right hchecks => hother ?_)
  exact exprByIdiom?_eq_none fun first second hsame => hdistinct (hchecks.unique hsame)

theorem condByIdiom?_unique {other : Idiom} (h : lifter.condByIdiom? idiom cond ≠ .ok none)
    (hother : lifter.condByIdiom? other cond ≠ .ok none) : idiom = other := by
  by_contra hdistinct
  refine h (condByIdiom?_eq_none fun left right hchecks => hother ?_)
  exact condByIdiom?_eq_none fun first second hsame => hdistinct (hchecks.unique hsame)

-- The order of the idioms changes nothing, failures included.
section Order

variable {idioms : Idioms} (horder : lifter.idioms.order.Perm idioms.order)

include horder

theorem expr_perm (term : Machine.Expr) :
    (lifter.withIdioms idioms).expr term = lifter.expr term := by
  induction term using Lifter.expr.induct with
  | case1 term ih =>
      have hanswer : firstAnswer? (lifter.exprByIdiom? · term) idioms.order =
          firstAnswer? (lifter.exprByIdiom? · term) lifter.idioms.order :=
        firstAnswer?_perm horder.symm fun _ _ => exprByIdiom?_unique
      unfold Lifter.expr
      change (firstAnswer? (lifter.exprByIdiom? · term) idioms.order >>= _) = _
      rw [hanswer]
      congr 1
      funext answer
      cases answer with
      | some found => rfl
      | none =>
          cases term with
          | binary op left right =>
              cases op with
              | arithmetic | compare | eq => simp only [ih.1, ih.2]
              | and | or | xor | extendSign => rfl
          | isZero number => simp only [ih]
          | ite condition first second => simp only [ih.1, ih.2.1, ih.2.2]
          | _ => rfl

theorem cond_perm (cond : Cond) : (lifter.withIdioms idioms).cond cond = lifter.cond cond := by
  induction cond using Lifter.cond.induct with
  | case1 cond ih =>
      have hanswer : firstAnswer? (lifter.condByIdiom? · cond) idioms.order =
          firstAnswer? (lifter.condByIdiom? · cond) lifter.idioms.order :=
        firstAnswer?_perm horder.symm fun _ _ => condByIdiom?_unique
      unfold Lifter.cond
      change (firstAnswer? (lifter.condByIdiom? · cond) idioms.order >>= _) = _
      rw [hanswer]
      congr 1
      funext answer
      cases answer with
      | some found => rfl
      | none =>
          cases cond with
          | eq left right =>
              cases left <;> cases right <;> simp only [expr_perm horder]
          | compare op left right => simp only [expr_perm horder]
          | neg inner => simp only [ih]
          | join op left right => simp only [ih.1, ih.2]
          | bool value => rfl

end Order

-- Without idioms the parts of what is lifted are lifted too, and operations on bits are not.
section Structure

theorem bits_ne_ok {op : BinaryOp} {left right : Machine.Expr} (hop : op = .and ∨ op = .xor) :
    (lifter.withIdioms .empty).expr (.binary op left right) ≠ .ok expr := by
  unfold Lifter.expr
  intro h
  rcases hop with rfl | rfl <;> cases h

theorem operands_of_structural {op : BinaryOp} {left right : Machine.Expr}
    (h : (lifter.withIdioms .empty).expr (.binary op left right) = .ok expr) :
    ∃ first second, (lifter.withIdioms .empty).expr left = .ok first ∧
      (lifter.withIdioms .empty).expr right = .ok second ∧
      ∀ arithmetic, op = .arithmetic arithmetic → expr = .arithmetic arithmetic first second := by
  unfold Lifter.expr at h
  obtain ⟨_, hanswer, h⟩ := bind_eq_ok.mp h
  obtain rfl := Except.ok.inj hanswer
  cases op with
  | arithmetic op =>
      obtain ⟨first, hfirst, h⟩ := bind_eq_ok.mp h
      obtain ⟨second, hsecond, h⟩ := bind_eq_ok.mp h
      split at h
      · cases h
      · obtain rfl := Except.ok.inj h
        refine ⟨first, second, hfirst, hsecond, ?_⟩
        rintro _ ⟨⟩
        rfl
  | compare | eq =>
      obtain ⟨first, hfirst, h⟩ := bind_eq_ok.mp h
      obtain ⟨second, hsecond, _⟩ := bind_eq_ok.mp h
      exact ⟨first, second, hfirst, hsecond, fun _ hop => by cases hop⟩
  | and | or | xor | extendSign => cases h

-- Every overflow check that is a word has an operation on bits in it.
theorem not_checksExpr_of_structural (h : (lifter.withIdioms .empty).expr term = .ok expr)
    (left right : Machine.Expr) : ¬idiom.ChecksExpr left right term := by
  intro hchecks
  cases hchecks with
  | sum | sumAfterOnes =>
      obtain ⟨_, _, hcomplement, _⟩ := operands_of_structural h
      exact bits_ne_ok (.inr rfl) hcomplement
  | product => exact bits_ne_ok (.inl rfl) h

theorem expr_of_structural (h : (lifter.withIdioms .empty).expr term = .ok expr) :
    lifter.expr term = .ok expr := by
  induction term using Lifter.expr.induct generalizing expr with
  | case1 term ih =>
      have hnone : firstAnswer? (lifter.exprByIdiom? · term) lifter.idioms.order = .ok none :=
        firstAnswer?_eq_none fun _ => exprByIdiom?_eq_none (not_checksExpr_of_structural h)
      unfold Lifter.expr at h ⊢
      obtain ⟨_, hanswer, h⟩ := bind_eq_ok.mp h
      obtain rfl := Except.ok.inj hanswer
      refine bind_eq_ok.mpr ⟨none, hnone, ?_⟩
      cases term with
      | binary op left right =>
          cases op with
          | arithmetic | compare | eq =>
              obtain ⟨first, hfirst, h⟩ := bind_eq_ok.mp h
              obtain ⟨second, hsecond, h⟩ := bind_eq_ok.mp h
              exact bind_eq_ok.mpr ⟨first, ih.1 hfirst,
                bind_eq_ok.mpr ⟨second, ih.2 hsecond, h⟩⟩
          | and | or | xor | extendSign => cases h
      | isZero number =>
          obtain ⟨value, hvalue, h⟩ := bind_eq_ok.mp h
          exact bind_eq_ok.mpr ⟨value, ih hvalue, h⟩
      | ite condition first second =>
          obtain ⟨truth, htruth, h⟩ := bind_eq_ok.mp h
          obtain ⟨one, hone, h⟩ := bind_eq_ok.mp h
          obtain ⟨other, hother, h⟩ := bind_eq_ok.mp h
          exact bind_eq_ok.mpr ⟨truth, ih.1 htruth,
            bind_eq_ok.mpr ⟨one, ih.2.1 hone, bind_eq_ok.mpr ⟨other, ih.2.2 hother, h⟩⟩⟩
      | _ => exact h

-- An operand of an idiom is accepted as it is lifted, or it is left alone, but it never fails.
theorem operand?_of_structural (h : (lifter.withIdioms .empty).expr term = .ok expr) :
    ∃ answer, lifter.operand? term = .ok answer ∧ ∀ found ∈ answer, found = expr := by
  have hunsigned : ∀ found ∈ unsigned? expr, found = expr := fun found hfound =>
    (unsigned?_eq_some (Option.mem_def.mp hfound)).1.symm
  unfold Lifter.expr at h
  obtain ⟨_, hanswer, h⟩ := bind_eq_ok.mp h
  obtain rfl := Except.ok.inj hanswer
  cases term with
  | lit | env =>
      obtain rfl := Except.ok.inj h
      exact ⟨_, rfl, hunsigned⟩
  | var | sload => exact ⟨_, map_eq_ok.mpr ⟨expr, h, rfl⟩, hunsigned⟩
  | _ => exact ⟨none, rfl, fun _ hfound => absurd hfound (Option.not_mem_none _)⟩

theorem expr_lit_of_structural (value : Word) :
    (lifter.withIdioms .empty).expr (.lit value) = .ok (.lit value.toInteger) := by
  unfold Lifter.expr
  rfl

theorem parts_of_structural {op : Connective} {left right : Cond}
    (h : (lifter.withIdioms .empty).cond (.join op left right) = .ok prop) :
    ∃ first second, (lifter.withIdioms .empty).cond left = .ok first ∧
      (lifter.withIdioms .empty).cond right = .ok second ∧ prop = .join op first second := by
  unfold Lifter.cond at h
  obtain ⟨_, hanswer, h⟩ := bind_eq_ok.mp h
  obtain rfl := Except.ok.inj hanswer
  obtain ⟨first, hfirst, h⟩ := bind_eq_ok.mp h
  obtain ⟨second, hsecond, h⟩ := bind_eq_ok.mp h
  exact ⟨first, second, hfirst, hsecond, (Except.ok.inj h).symm⟩

theorem inner_of_structural {inner : Cond}
    (h : (lifter.withIdioms .empty).cond (.neg inner) = .ok prop) :
    ∃ value, (lifter.withIdioms .empty).cond inner = .ok value ∧ prop = .neg value := by
  unfold Lifter.cond at h
  obtain ⟨_, hanswer, h⟩ := bind_eq_ok.mp h
  obtain rfl := Except.ok.inj hanswer
  obtain ⟨value, hvalue, h⟩ := bind_eq_ok.mp h
  exact ⟨value, hvalue, (Except.ok.inj h).symm⟩

theorem sides_of_structural {left right : Machine.Expr}
    (h : (lifter.withIdioms .empty).cond (.eqWords left right) = .ok prop) :
    ∃ first second, (lifter.withIdioms .empty).expr left = .ok first ∧
      (lifter.withIdioms .empty).expr right = .ok second ∧ prop = .intEq first second := by
  unfold Lifter.cond at h
  obtain ⟨_, hanswer, h⟩ := bind_eq_ok.mp h
  obtain rfl := Except.ok.inj hanswer
  obtain ⟨first, hfirst, h⟩ := bind_eq_ok.mp h
  obtain ⟨second, hsecond, h⟩ := bind_eq_ok.mp h
  split at h
  · exact ⟨first, second, hfirst, hsecond, (Except.ok.inj h).symm⟩
  · cases h

theorem compared_of_structural {op : Comparison} {left right : Machine.Expr}
    (h : (lifter.withIdioms .empty).cond (.compare op left right) = .ok prop) :
    ∃ first second, (lifter.withIdioms .empty).expr left = .ok first ∧
      (lifter.withIdioms .empty).expr right = .ok second ∧ prop = .compare op first second := by
  unfold Lifter.cond at h
  obtain ⟨_, hanswer, h⟩ := bind_eq_ok.mp h
  obtain rfl := Except.ok.inj hanswer
  obtain ⟨first, hfirst, h⟩ := bind_eq_ok.mp h
  obtain ⟨second, hsecond, h⟩ := bind_eq_ok.mp h
  split at h
  · cases h
  · exact ⟨first, second, hfirst, hsecond, (Except.ok.inj h).symm⟩

-- What the check of a product is lifted to without idioms.
theorem product_of_structural {guard : Cond} {left right : Machine.Expr}
    (h : (lifter.withIdioms .empty).cond
      (.join .and (.neg guard) (.lt ((Machine.Expr.lit Word.max).div left) right)) = .ok prop) :
    ∃ nonzero first second, (lifter.withIdioms .empty).cond guard = .ok nonzero ∧
      (lifter.withIdioms .empty).expr left = .ok first ∧
      (lifter.withIdioms .empty).expr right = .ok second ∧
      prop = .join .and (.neg nonzero)
        (.compare .lt (.arithmetic .div (.lit Word.max.toInteger) first) second) := by
  obtain ⟨_, _, hguard, hbelow, rfl⟩ := parts_of_structural h
  obtain ⟨nonzero, hnonzero, rfl⟩ := inner_of_structural hguard
  obtain ⟨_, second, hquotient, hsecond, rfl⟩ := compared_of_structural hbelow
  obtain ⟨_, first, hgreatest, hfirst, hdivision⟩ := operands_of_structural hquotient
  obtain rfl := Except.ok.inj ((expr_lit_of_structural Word.max).symm.trans hgreatest)
  obtain rfl := hdivision .div rfl
  exact ⟨nonzero, first, second, hnonzero, hfirst, hsecond, rfl⟩

-- The idiom takes the check of a product over only where both operands are accepted, and then the
-- meaning stays the same.
theorem answer_of_product {left right : Machine.Expr} {first second : IntExpr} {guard : BoolExpr}
    (hchecks : Idiom.multiplicationOverflow.ChecksCond left right cond)
    (hleft : (lifter.withIdioms .empty).expr left = .ok first)
    (hright : (lifter.withIdioms .empty).expr right = .ok second)
    (hguard : ∀ (valuation : Valuation) (word : Word),
      first.eval valuation = .ok word.toInteger → guard.eval valuation = .ok (word == 0)) :
    ∃ answer, lifter.condByIdiom? .multiplicationOverflow cond = .ok answer ∧
      ∀ found ∈ answer, lifter.SameMeaning found (.join .and (.neg guard)
        (.compare .lt (.arithmetic .div (.lit Word.max.toInteger) first) second)) := by
  obtain ⟨one, hone, hfirst⟩ := operand?_of_structural hleft
  obtain ⟨other, hother, hsecond⟩ := operand?_of_structural hright
  have hshape := Idiom.operandsOfCond?_eq_some_iff.mpr hchecks
  cases one with
  | none =>
      refine ⟨none, ?_, nofun⟩
      rw [condByIdiom?, hshape]
      exact map_eq_ok.mpr ⟨none, bind_eq_ok.mpr ⟨none, hone, rfl⟩, rfl⟩
  | some one =>
      obtain rfl := hfirst one rfl
      cases other with
      | none =>
          refine ⟨none, ?_, nofun⟩
          rw [condByIdiom?, hshape]
          exact map_eq_ok.mpr ⟨none,
            bind_eq_ok.mpr ⟨some one, hone, bind_eq_ok.mpr ⟨none, hother, rfl⟩⟩, rfl⟩
      | some other =>
          obtain rfl := hsecond other rfl
          refine ⟨_, condByIdiom?_eq_some_iff.mpr
            ⟨left, right, one, other, hchecks, hone, hother, rfl⟩, ?_⟩
          rintro _ ⟨⟩ assignment
          obtain ⟨word, _, hword⟩ := eval_of_operand? assignment hone
          obtain ⟨factor, _, hfactor⟩ := eval_of_operand? assignment hother
          rw [Idiom.eval_conclusion _ hword hfactor,
            Idiom.eval_product (hguard _ _ hword) hword hfactor]

-- No idiom fails on what can be lifted without it, or gives it another meaning.
theorem condByIdiom?_of_structural (idiom : Idiom)
    (h : (lifter.withIdioms .empty).cond cond = .ok prop) :
    ∃ answer, lifter.condByIdiom? idiom cond = .ok answer ∧
      ∀ found ∈ answer, lifter.SameMeaning found prop := by
  by_cases hchecks : ∃ left right, idiom.ChecksCond left right cond
  · obtain ⟨left, right, hchecks⟩ := hchecks
    cases hchecks with
    | sum | sumAfterOnes =>
        obtain ⟨_, _, hcomplement, _⟩ := compared_of_structural h
        exact absurd hcomplement (bits_ne_ok (.inr rfl))
    | product right hzero =>
        obtain ⟨_, first, second, hguard, hfirst, hsecond, rfl⟩ := product_of_structural h
        obtain ⟨one, zero, hone, hlit, rfl⟩ := sides_of_structural hguard
        obtain rfl := Except.ok.inj (hone.symm.trans hfirst)
        obtain rfl := Except.ok.inj ((expr_lit_of_structural 0).symm.trans hlit)
        exact answer_of_product (.product right hzero) hfirst hsecond
          fun _ _ hword => Idiom.eval_equalsZero hword
    | productAfterZero right hzero =>
        obtain ⟨_, first, second, hguard, hfirst, hsecond, rfl⟩ := product_of_structural h
        obtain ⟨zero, one, hlit, hone, rfl⟩ := sides_of_structural hguard
        obtain rfl := Except.ok.inj (hone.symm.trans hfirst)
        obtain rfl := Except.ok.inj ((expr_lit_of_structural 0).symm.trans hlit)
        exact answer_of_product (.productAfterZero right hzero) hfirst hsecond
          fun _ _ hword => Idiom.eval_zeroEquals hword
  · push Not at hchecks
    exact ⟨none, condByIdiom?_eq_none hchecks, nofun⟩

theorem firstAnswer?_of_structural (h : (lifter.withIdioms .empty).cond cond = .ok prop) :
    ∃ answer, firstAnswer? (lifter.condByIdiom? · cond) lifter.idioms.order = .ok answer ∧
      ∀ found ∈ answer, lifter.SameMeaning found prop := by
  have hasks := fun idiom => condByIdiom?_of_structural idiom h
  obtain ⟨answer, hanswer⟩ : ∃ answer,
      firstAnswer? (lifter.condByIdiom? · cond) lifter.idioms.order = .ok answer :=
    exists_firstAnswer? fun idiom => (hasks idiom).imp fun _ => And.left
  refine ⟨answer, hanswer, fun found hfound => ?_⟩
  rw [Option.mem_def.mp hfound] at hanswer
  obtain ⟨idiom, _, hidiom⟩ := exists_of_firstAnswer? hanswer
  obtain ⟨_, hother, hsame⟩ := hasks idiom
  obtain rfl := Except.ok.inj (hidiom.symm.trans hother)
  exact hsame found rfl

-- Whatever is lifted without idioms is lifted with them, to something that means the same.
theorem cond_of_structural (h : (lifter.withIdioms .empty).cond cond = .ok prop) :
    ∃ other, lifter.cond cond = .ok other ∧ lifter.SameMeaning other prop := by
  induction cond using Lifter.cond.induct generalizing prop with
  | case1 cond ih =>
      obtain ⟨answer, hanswer, hsame⟩ := firstAnswer?_of_structural h
      unfold Lifter.cond at h ⊢
      cases answer with
      | some answer =>
          exact ⟨answer, bind_eq_ok.mpr ⟨some answer, hanswer, rfl⟩, hsame answer rfl⟩
      | none =>
          obtain ⟨_, hempty, h⟩ := bind_eq_ok.mp h
          obtain rfl := Except.ok.inj hempty
          refine Exists.imp
            (fun _ => And.imp_left fun hnode => bind_eq_ok.mpr ⟨none, hanswer, hnode⟩) ?_
          cases cond with
          | bool value => exact ⟨prop, h, fun _ => rfl⟩
          | eq left right =>
              cases left with
              | word left =>
                  cases right with
                  | word right =>
                      obtain ⟨first, hfirst, h⟩ := bind_eq_ok.mp h
                      obtain ⟨second, hsecond, h⟩ := bind_eq_ok.mp h
                      exact ⟨prop, bind_eq_ok.mpr ⟨first, expr_of_structural hfirst,
                        bind_eq_ok.mpr ⟨second, expr_of_structural hsecond, h⟩⟩, fun _ => rfl⟩
                  | buffer | store => cases h
              | buffer | store => cases h
          | compare op left right =>
              obtain ⟨first, hfirst, h⟩ := bind_eq_ok.mp h
              obtain ⟨second, hsecond, h⟩ := bind_eq_ok.mp h
              exact ⟨prop, bind_eq_ok.mpr ⟨first, expr_of_structural hfirst,
                bind_eq_ok.mpr ⟨second, expr_of_structural hsecond, h⟩⟩, fun _ => rfl⟩
          | neg inner =>
              obtain ⟨value, hvalue, h⟩ := bind_eq_ok.mp h
              obtain rfl := Except.ok.inj h
              obtain ⟨other, hother, hmeans⟩ := ih hvalue
              refine ⟨.neg other, bind_eq_ok.mpr ⟨other, hother, rfl⟩, fun assignment => ?_⟩
              rw [BoolExpr.eval, BoolExpr.eval, hmeans]
          | join op left right =>
              obtain ⟨first, hfirst, h⟩ := bind_eq_ok.mp h
              obtain ⟨second, hsecond, h⟩ := bind_eq_ok.mp h
              obtain rfl := Except.ok.inj h
              obtain ⟨one, hone, hleft⟩ := ih.1 hfirst
              obtain ⟨other, hother, hright⟩ := ih.2 hsecond
              refine ⟨.join op one other,
                bind_eq_ok.mpr ⟨one, hone, bind_eq_ok.mpr ⟨other, hother, rfl⟩⟩,
                fun assignment => ?_⟩
              rw [BoolExpr.eval, BoolExpr.eval, hleft, hright]

end Structure

-- Idioms only add to what can be lifted. A word that is lifted without them is lifted to the same
-- expression with them, and a proposition to one that has the same truth in every state or, as the
-- other one, has none. The order in which they are tried changes nothing.
theorem lifting_extends_structure (lifter : Lifter) :
    (∀ term expr, (lifter.withIdioms .empty).expr term = .ok expr →
      lifter.expr term = .ok expr) ∧
    (∀ cond prop, (lifter.withIdioms .empty).cond cond = .ok prop →
      ∃ other, lifter.cond cond = .ok other ∧ ∀ assignment,
        other.eval (.ofStorage assignment lifter.resolver) =
          prop.eval (.ofStorage assignment lifter.resolver)) ∧
    (∀ idioms : Idioms, lifter.idioms.order.Perm idioms.order →
      (∀ term, (lifter.withIdioms idioms).expr term = lifter.expr term) ∧
      ∀ cond, (lifter.withIdioms idioms).cond cond = lifter.cond cond) :=
  ⟨fun _ _ => expr_of_structural, fun _ _ => cond_of_structural,
    fun _ horder => ⟨expr_perm horder, cond_perm horder⟩⟩

-- The check of a product is lifted either way. With idioms it becomes a range fact.
theorem lifting_extends_structure_counter :
    let plain := counterLifter.withIdioms .empty
    let turned := counterLifter.withIdioms
      ⟨[.multiplicationOverflow, .additionOverflow], by decide⟩
    let total := Machine.Expr.sload (.lit 0) .abstract
    let check := Cond.join .and (.neg (.eqWords total (.lit 0)))
      (.lt ((Machine.Expr.lit Word.max).div total) (.var "amount"))
    let prop := BoolExpr.join .and (.neg (.intEq counterTotal (.lit 0)))
      (.compare .lt (.arithmetic .div (.lit Word.max.toInteger) counterTotal)
        (.var "amount" .uint256))
    let difference := Machine.Expr.sub (.var "change") (.lit 1)
    let integer := IntExpr.arithmetic .sub (.var "change" (.int 256)) (.lit 1)
    (plain.expr difference = .ok integer ∧ counterLifter.expr difference = .ok integer) ∧
    (plain.cond check = .ok prop ∧ counterLifter.cond check ≠ .ok prop ∧
      ∃ other, counterLifter.cond check = .ok other ∧ ∀ assignment,
        other.eval (.ofStorage assignment counterLifter.resolver) =
          prop.eval (.ofStorage assignment counterLifter.resolver)) ∧
    (counterLifter.idioms.order.Perm turned.idioms.order ∧
      turned.cond check = counterLifter.cond check) := by
  intro plain turned total check prop difference integer
  have hdifference : plain.expr difference = .ok integer := by decide +kernel
  have hcheck : plain.cond check = .ok prop := by decide +kernel
  have hother : counterLifter.cond check ≠ .ok prop := by decide +kernel
  have hturned : counterLifter.idioms.order.Perm turned.idioms.order := by decide
  obtain ⟨hwords, hprops, horder⟩ := lifting_extends_structure counterLifter
  exact ⟨⟨hdifference, hwords _ _ hdifference⟩, ⟨hcheck, hother, hprops _ _ hcheck⟩,
    hturned, (horder turned.idioms hturned).2 check⟩

end SpecRecovery.Lifter
