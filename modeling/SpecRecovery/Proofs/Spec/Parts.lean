import SpecRecovery.Proofs.Spec.Signedness

namespace SpecRecovery.Spec

-- Every boolean expression within an expression, itself included. The conditions of conditionals
-- and both sides of equations count as well.
mutual

def IntExpr.booleans : IntExpr → List BoolExpr
  | .arithmetic _ left right => left.booleans ++ right.booleans
  | .ite condition first second => condition.booleans ++ (first.booleans ++ second.booleans)
  | .lit _ | .var _ _ | .env _ | .entry _ _ => []

def BoolExpr.booleans : BoolExpr → List BoolExpr
  | .lit value => [.lit value]
  | .join op left right => .join op left right :: (left.booleans ++ right.booleans)
  | .neg value => .neg value :: value.booleans
  | .compare op left right => .compare op left right :: (left.booleans ++ right.booleans)
  | .eq equation => .eq equation :: equation.booleans
  | .neq equation => .neq equation :: equation.booleans
  | .inRange type value => .inRange type value :: value.booleans

def Equation.booleans : Equation → List BoolExpr
  | .integer left right => left.booleans ++ right.booleans
  | .boolean left right => left.booleans ++ right.booleans
  | .byteString _ _ => []
  | .contract _ _ => []

end

-- All that stands within a well signed expression is well signed itself.
section WellSigned

variable {vocabulary : Vocabulary}

mutual

theorem IntExpr.wellSigned_parts : (expr : IntExpr) → expr.WellSigned vocabulary →
    (∀ part ∈ expr.visited, part.WellSigned vocabulary) ∧
      ∀ part ∈ expr.booleans, part.WellSigned vocabulary
  | .lit _, h | .var _ _, h | .env _, h | .entry _ _, h => by
      simpa [IntExpr.visited, IntExpr.booleans] using h
  | .arithmetic op left right, h => by
      have hleft := left.wellSigned_parts h.1
      have hright := right.wellSigned_parts h.2.1
      simp only [IntExpr.visited, IntExpr.booleans, List.forall_mem_cons, List.forall_mem_append]
      exact ⟨⟨h, hleft.1, hright.1⟩, hleft.2, hright.2⟩
  | .ite condition first second, h => by
      have hcondition := condition.wellSigned_parts h.1
      have hfirst := first.wellSigned_parts h.2.1
      have hsecond := second.wellSigned_parts h.2.2
      simp only [IntExpr.visited, IntExpr.booleans, List.forall_mem_cons, List.forall_mem_append]
      exact ⟨⟨h, ⟨hcondition.1, hfirst.1⟩, hsecond.1⟩, hcondition.2, hfirst.2, hsecond.2⟩

theorem BoolExpr.wellSigned_parts : (expr : BoolExpr) → expr.WellSigned vocabulary →
    (∀ part ∈ expr.visited, part.WellSigned vocabulary) ∧
      ∀ part ∈ expr.booleans, part.WellSigned vocabulary
  | .lit _, h => by simpa [BoolExpr.visited, BoolExpr.booleans] using h
  | .join op left right, h => by
      have hleft := left.wellSigned_parts h.1
      have hright := right.wellSigned_parts h.2
      simp only [BoolExpr.visited, BoolExpr.booleans, List.forall_mem_cons, List.forall_mem_append]
      exact ⟨⟨hleft.1, hright.1⟩, h, hleft.2, hright.2⟩
  | .neg value, h => by
      have hvalue := value.wellSigned_parts h
      simp only [BoolExpr.visited, BoolExpr.booleans, List.forall_mem_cons]
      exact ⟨hvalue.1, h, hvalue.2⟩
  | .compare op left right, h => by
      have hleft := left.wellSigned_parts h.1
      have hright := right.wellSigned_parts h.2.1
      simp only [BoolExpr.visited, BoolExpr.booleans, List.forall_mem_cons, List.forall_mem_append]
      exact ⟨⟨hleft.1, hright.1⟩, h, hleft.2, hright.2⟩
  | .eq equation, h => by
      have hequation := equation.wellSigned_parts h
      simp only [BoolExpr.visited, BoolExpr.booleans, List.forall_mem_cons]
      exact ⟨hequation.1, h, hequation.2⟩
  | .neq equation, h => by
      have hequation := equation.wellSigned_parts h
      simp only [BoolExpr.visited, BoolExpr.booleans, List.forall_mem_cons]
      exact ⟨hequation.1, h, hequation.2⟩
  | .inRange type value, h => by
      have hvalue := value.wellSigned_parts h.1
      simp only [BoolExpr.visited, BoolExpr.booleans, List.forall_mem_cons]
      exact ⟨hvalue.1, h, hvalue.2⟩

theorem Equation.wellSigned_parts : (equation : Equation) → equation.WellSigned vocabulary →
    (∀ part ∈ equation.visited, part.WellSigned vocabulary) ∧
      ∀ part ∈ equation.booleans, part.WellSigned vocabulary
  | .integer left right, h => by
      have hleft := left.wellSigned_parts h.1
      have hright := right.wellSigned_parts h.2.1
      simp only [Equation.visited, Equation.booleans, List.forall_mem_append]
      exact ⟨⟨hleft.1, hright.1⟩, hleft.2, hright.2⟩
  | .boolean left right, h => by
      have hleft := left.wellSigned_parts h.1
      have hright := right.wellSigned_parts h.2
      simp only [Equation.visited, Equation.booleans, List.forall_mem_append]
      exact ⟨⟨hleft.1, hright.1⟩, hleft.2, hright.2⟩
  | .byteString _ _, h => nomatch h
  | .contract _ _, h => nomatch h

end

end WellSigned

end SpecRecovery.Spec
