import SpecRecovery.Proofs.Lifting.Meaning

namespace SpecRecovery.Lifter

open Machine Spec

-- Where no exposed integer leaves its bounds, the machine and the unbounded integers see the same
-- truths, and a word is what is left of the integer.
theorem lifting_sound_of_inBounds (lifter : Lifter) (assignment : Assignment) :
    (∀ cond prop, lifter.cond cond = .ok prop →
      (∀ part ∈ prop.exposed, part.InBounds (.ofStorage assignment lifter.resolver)) →
      ∃ truth, cond.holds assignment = .ok truth ∧
        prop.canonical.eval (.ofStorage assignment lifter.resolver) = .ok truth) ∧
    (∀ term expr, lifter.expr term = .ok expr →
      (∀ part ∈ expr.exposed, part.InBounds (.ofStorage assignment lifter.resolver)) →
      ∃ value, expr.eval (.ofStorage assignment lifter.resolver) = .ok value ∧
        term.eval assignment = .ok (Word.wrap value)) := by
  have hdecides := emitted_decides lifter.resolver
  constructor
  · intro cond prop hlift hbounds
    have hlifts := condLifts_of_cond hlift
    have hfaithful :=
      prop.faithful_of_inBounds hdecides (wellSigned_of_condLifts hlifts) hbounds
    refine ⟨_, holds_of_condLifts assignment hlifts, ?_⟩
    rw [BoolExpr.canonical_eval, BoolExpr.eval_of_faithful prop hfaithful]
  · intro term expr hlift hbounds
    have hlifts := lifts_of_expr hlift
    rw [IntExpr.exposed, List.forall_mem_cons] at hbounds
    obtain ⟨⟨value, heval, _⟩, hinner⟩ := hbounds
    have hfaithful :=
      expr.faithful_of_inBounds hdecides (wellSigned_of_lifts hlifts) hinner
    refine ⟨value, heval, ?_⟩
    rw [eval_of_lifts assignment hlifts, (IntExpr.word_of_faithful expr hfaithful heval).1]

-- A contract with one counter, and a method that is given an amount and a signed change.
def counterLifter : Lifter where
  resolver := ⟨"Counter", ⟨[.ofValue "total" 0 .uint256]⟩, by decide, by decide⟩
  interface := ⟨"count", [⟨"amount", .uint256⟩, ⟨"change", .int 256⟩]⟩
  idioms := .all

-- The amount and the counter add up to one more than a word holds, and the change is negative.
def counterAssignment : Assignment :=
  ⟨.ofList [("amount", Word.max), ("change", Word.max)], .empty, 0, .ofList [(0, 1)]⟩

def counterTotal : IntExpr := .pre ⟨"Counter", "total", .uint256⟩

-- The sum that is checked may exceed a word, because only its operands are exposed.
theorem lifting_sound_counter :
    let valuation := Valuation.ofStorage counterAssignment counterLifter.resolver
    let check :=
      Cond.lt (.binary .xor (.var "amount") (.lit Word.max)) (.sload (.lit 0) .abstract)
    let fact := BoolExpr.neg (.inRange .uint256 (.add (.var "amount" .uint256) counterTotal))
    let difference := Machine.Expr.sub (.var "change") (.lit 1)
    let integer := IntExpr.arithmetic .sub (.var "change" (.int 256)) (.lit 1)
    (counterLifter.cond check = .ok fact ∧ (∀ part ∈ fact.exposed, part.InBounds valuation) ∧
      ∃ truth, check.holds counterAssignment = .ok truth ∧
        fact.canonical.eval valuation = .ok truth) ∧
    (counterLifter.expr difference = .ok integer ∧
      (∀ part ∈ integer.exposed, part.InBounds valuation) ∧
      ∃ value, integer.eval valuation = .ok value ∧
        difference.eval counterAssignment = .ok (Word.wrap value)) := by
  intro valuation check fact difference integer
  have hcheck : counterLifter.cond check = .ok fact := by decide +kernel
  have hfact : ∀ part ∈ fact.exposed, part.InBounds valuation := by decide +kernel
  have hdifference : counterLifter.expr difference = .ok integer := by decide +kernel
  have hinteger : ∀ part ∈ integer.exposed, part.InBounds valuation := by decide +kernel
  have hsound := lifting_sound_of_inBounds counterLifter counterAssignment
  exact ⟨⟨hcheck, hfact, hsound.1 check fact hcheck hfact⟩,
    hdifference, hinteger, hsound.2 difference integer hdifference hinteger⟩

end SpecRecovery.Lifter
