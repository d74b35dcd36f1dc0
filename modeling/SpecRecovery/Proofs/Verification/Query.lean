import SpecRecovery.Proofs.Result
import SpecRecovery.Verification.Basic

namespace SpecRecovery.Verification

open Machine Spec

variable {solver : Solver} {resolver : Resolver} {contract : Contract} {creation : List Branch}
  {summary : MethodSummary} {specification : Specification} {query : EquivalenceQuery}

-- What is asked about the creation, where nothing is stored that could be assumed about.
theorem constructorQuery_eq_ok :
    constructorQuery resolver contract creation specification = .ok query ↔
      ∃ lowered typed, Lowerer.constructorBranch resolver specification.constructor
          contract.runtimeCode = .ok lowered ∧
        assumptions (.before resolver .empty) contract.constructor [] = .ok typed ∧
        query = ⟨underAll typed [lowered], underAll typed creation⟩ := by
  simp only [constructorQuery, bind_eq_ok]
  constructor
  · rintro ⟨lowered, hlowered, typed, htyped, h⟩
    exact ⟨lowered, typed, hlowered, htyped, (Except.ok.inj h).symm⟩
  · rintro ⟨lowered, typed, hlowered, htyped, rfl⟩
    exact ⟨lowered, hlowered, typed, htyped, rfl⟩

-- What is asked about a method: both sides under the same assumptions.
theorem methodQuery_eq_ok : methodQuery resolver summary specification = .ok query ↔
    ∃ specified typed,
      (specification.behavioursOf summary.method.signature).mapM
        (Lowerer.behaviourBranch resolver) = .ok specified ∧
      assumptions (.before resolver .abstract) summary.method.interface
        (resolver.resolvable.map Prod.snd) = .ok typed ∧
      let assumed := typed ++ [.eqWords .selector (.lit summary.method.selector.toWord)]
      query = ⟨underAll assumed specified, underAll assumed summary.branches⟩ := by
  simp only [methodQuery, bind_eq_ok]
  constructor
  · rintro ⟨specified, hspecified, typed, htyped, h⟩
    exact ⟨specified, typed, hspecified, htyped, (Except.ok.inj h).symm⟩
  · rintro ⟨specified, typed, hspecified, htyped, rfl⟩
    exact ⟨specified, hspecified, typed, htyped, rfl⟩

-- What the answer of a solver means for the comparison.
def verdict : Except VerificationError (Option Counterexample) → Except VerificationError Unit
  | .ok none => .ok ()
  | .ok (some found) => .error (.counterexample found)
  | .error reason => .error reason

theorem compare_ok (solver : Solver) (query : EquivalenceQuery) :
    compare solver (.ok query) = verdict (solver.equivalence query.specified query.explored) := by
  unfold compare
  change (solver.equivalence query.specified query.explored >>= _) = _
  cases solver.equivalence query.specified query.explored with
  | error reason => rfl
  | ok answer => cases answer <;> rfl

theorem compare_error (solver : Solver) (reason : VerificationError) :
    compare solver (.error reason) = .error reason := rfl

theorem compare_eq_ok {question : Except VerificationError EquivalenceQuery} :
    compare solver question = .ok () ↔
      ∃ query, question = .ok query ∧
        solver.equivalence query.specified query.explored = .ok none := by
  cases question with
  | error reason => exact ⟨nofun, fun ⟨_, h, _⟩ => (nomatch h)⟩
  | ok query =>
      simp only [compare_ok, Except.ok.injEq, exists_eq_left']
      cases solver.equivalence query.specified query.explored with
      | error reason => exact ⟨nofun, nofun⟩
      | ok answer => cases answer <;> simp [verdict]

end SpecRecovery.Verification
