import Mathlib.Logic.Relation
import SpecRecovery.Spec.Specification

namespace SpecRecovery.Spec

-- What stands directly within an expression.
def Equation.sides : Equation → List Expr
  | .integer left right => [.integer left, .integer right]
  | .boolean left right => [.boolean left, .boolean right]
  | .byteString left right => [.byteString left, .byteString right]
  | .contract left right => [.contract left, .contract right]

def IntExpr.operands : IntExpr → List Expr
  | .lit _ | .var _ _ | .env _ | .entry _ _ => []
  | .arithmetic _ left right => [.integer left, .integer right]
  | .ite condition first second => [.boolean condition, .integer first, .integer second]

def BoolExpr.operands : BoolExpr → List Expr
  | .lit _ => []
  | .join _ left right => [.boolean left, .boolean right]
  | .neg value => [.boolean value]
  | .compare _ left right => [.integer left, .integer right]
  | .eq equation | .neq equation => equation.sides
  | .inRange _ value => [.integer value]

namespace Expr

def operands : Expr → List Expr
  | integer value => value.operands
  | boolean value => value.operands
  | byteString _ | contract _ => []

-- An expression occurs in itself and, at any depth, in what it is an operand of.
def OccursIn : Expr → Expr → Prop := Relation.ReflTransGen fun part whole => part ∈ whole.operands

def visited : Expr → List IntExpr
  | integer value => value.visited
  | boolean value => value.visited
  | byteString _ | contract _ => []

theorem sizeOf_operand_lt {operand whole : Expr} (h : operand ∈ whole.operands) :
    sizeOf operand < sizeOf whole := by
  cases whole with
  | integer value =>
      cases value <;> simp [operands, IntExpr.operands] at h <;>
        rcases h with rfl | rfl | rfl <;> simp <;> omega
  | boolean value =>
      cases value with
      | eq equation | neq equation =>
          cases equation <;> simp [operands, BoolExpr.operands, Equation.sides] at h <;>
            rcases h with rfl | rfl <;> simp <;> omega
      | _ =>
          simp [operands, BoolExpr.operands] at h <;>
            rcases h with rfl | rfl <;> simp <;> omega
  | byteString | contract => simp [operands] at h

-- An integer is visited before whatever is visited within it.
theorem mem_visited_iff {part : IntExpr} {whole : Expr} : part ∈ whole.visited ↔
    whole = .integer part ∨ ∃ operand ∈ whole.operands, part ∈ operand.visited := by
  cases whole with
  | integer value =>
      cases value <;> simp [visited, operands, IntExpr.visited, IntExpr.operands, eq_comm]
  | boolean value =>
      cases value with
      | eq equation | neq equation =>
          cases equation <;> simp [visited, operands, BoolExpr.visited, BoolExpr.operands,
            Equation.visited, Equation.sides]
      | _ => simp [visited, operands, BoolExpr.visited, BoolExpr.operands]
  | byteString | contract => simp [visited, operands]

theorem occursIn_of_mem_visited {part : IntExpr} (whole : Expr) (h : part ∈ whole.visited) :
    OccursIn (.integer part) whole := by
  rcases mem_visited_iff.mp h with rfl | ⟨operand, hoperand, hpart⟩
  · exact .refl
  · exact (occursIn_of_mem_visited operand hpart).tail hoperand
termination_by sizeOf whole
decreasing_by exact sizeOf_operand_lt hoperand

-- The visitor reaches every integer at whatever depth it occurs, and nothing else.
theorem mem_visited_iff_occursIn {part : IntExpr} {whole : Expr} :
    part ∈ whole.visited ↔ OccursIn (.integer part) whole := by
  refine ⟨occursIn_of_mem_visited whole, fun h => ?_⟩
  induction h with
  | refl => exact mem_visited_iff.mpr (.inl rfl)
  | tail _ hoperand ih => exact mem_visited_iff.mpr (.inr ⟨_, hoperand, ih⟩)

end Expr

-- The integer occurs in one of several expressions.
def IntExpr.MentionedIn (part : IntExpr) (exprs : List Expr) : Prop :=
  ∃ expr ∈ exprs, (Expr.integer part).OccursIn expr

-- What a behaviour says: its preconditions, the new values and what is returned. The variables that
-- get the new values are not read.
def Behaviour.exprs (behaviour : Behaviour) : List Expr :=
  behaviour.preconditions.map .boolean ++
    (behaviour.storageUpdates.map (fun update => .integer update.value) ++
      behaviour.returns.toList.map .integer)

def Constructor.exprs (constructor : Constructor) : List Expr :=
  constructor.preconditions.map .boolean ++
    constructor.initialStorage.map fun update => .integer update.value

theorem Behaviour.mem_reads_iff {behaviour : Behaviour} {part : IntExpr} :
    part ∈ behaviour.reads ↔ part.MentionedIn behaviour.exprs := by
  have hreads : behaviour.reads = behaviour.exprs.flatMap Expr.visited := by
    cases hreturns : behaviour.returns <;>
      simp [Behaviour.reads, Behaviour.exprs, hreturns, List.flatMap_map, Expr.visited]
  simp [hreads, IntExpr.MentionedIn, Expr.mem_visited_iff_occursIn]

theorem Constructor.mem_reads_iff {constructor : Constructor} {part : IntExpr} :
    part ∈ constructor.reads ↔ part.MentionedIn constructor.exprs := by
  have hreads : constructor.reads = constructor.exprs.flatMap Expr.visited := by
    simp [Constructor.reads, Constructor.exprs, List.flatMap_map, Expr.visited]
  simp [hreads, IntExpr.MentionedIn, Expr.mem_visited_iff_occursIn]

end SpecRecovery.Spec
