import SpecRecovery.Proofs.Sampling.Outcome
import SpecRecovery.Proofs.Sampling.Run

namespace SpecRecovery.Sampling

open Machine SpecRecovery.Random

section Search

variable {σ : Type} [Supply σ]

-- The assignments that a search draws in a row, when it ends at none of them.
def Sampler.drawn (sampler : Sampler) : (remaining sample : Nat) → StateM σ (List Assignment)
  | 0, _ => return []
  | remaining + 1, sample => do
      let assignment ← sampler.assignment sample
      return assignment :: (← sampler.drawn remaining (sample + 1))

variable {sampler : Sampler} {specified explored : List Branch} {slots : List Word}
  {remaining sample : Nat} {state : σ} {answer : Option Counterexample}

-- The two sides have outcomes at an assignment, and these are the same.
def Agree (slots : List Word) (specified explored : List Branch) (assignment : Assignment) :
    Prop :=
  ∃ outcome, outcome? assignment slots specified = .ok outcome ∧
    outcome? assignment slots explored = .ok outcome

-- A counterexample reports both outcomes at the first assignment at which they differ.
structure Reports (slots : List Word) (specified explored : List Branch)
    (before : List Assignment) (found : Counterexample) : Prop where
  before : ∀ earlier ∈ before, Agree slots specified explored earlier
  expected : outcome? found.assignment slots specified = .ok found.expected
  actual : outcome? found.assignment slots explored = .ok found.actual
  differ : found.expected ≠ found.actual

-- How a search among assignments may end that are numbered from the given sample on.
inductive Searched (slots : List Word) (specified explored : List Branch) (sample : Nat)
    (assignments : List Assignment) : Option Counterexample → Prop
  | exhausted (hall : ∀ assignment ∈ assignments, Agree slots specified explored assignment) :
      Searched slots specified explored sample assignments none
  | ended {before after : List Assignment} {found : Counterexample}
      (hsplit : assignments = before ++ found.assignment :: after)
      (hsample : found.sample = sample + before.length)
      (hreports : Reports slots specified explored before found) :
      Searched slots specified explored sample assignments (some found)

theorem Searched.cons {assignments : List Assignment} {assignment : Assignment}
    (h : Searched slots specified explored (sample + 1) assignments answer)
    (hagree : Agree slots specified explored assignment) :
    Searched slots specified explored sample (assignment :: assignments) answer := by
  cases h with
  | exhausted hall => exact .exhausted (List.forall_mem_cons.mpr ⟨hagree, hall⟩)
  | @ended before after found hsplit hsample hreports =>
      have hcons : assignment :: assignments =
          (assignment :: before) ++ found.assignment :: after := by rw [hsplit, List.cons_append]
      refine .ended hcons ?_ ?_
      · rw [hsample, List.length_cons]
        omega
      · exact { hreports with before := List.forall_mem_cons.mpr ⟨hagree, hreports.before⟩ }

-- One round draws an assignment, and ends the search if the outcomes at it differ.
theorem firstDifference?_succ {assignment : Assignment} {next : σ}
    (hround : (sampler.assignment sample).run state = (assignment, next))
    (h : ((firstDifference? sampler specified explored (remaining + 1) sample).run.run state).1 =
      .ok answer) :
    ∃ expected actual, outcome? assignment sampler.slots specified = .ok expected ∧
      outcome? assignment sampler.slots explored = .ok actual ∧
      ((expected = actual ∧
        ((firstDifference? sampler specified explored remaining (sample + 1)).run.run next).1 =
          .ok answer) ∨
      (expected ≠ actual ∧ answer = some ⟨assignment, expected, actual, sample⟩)) := by
  rw [firstDifference?, run_draw, hround] at h
  obtain ⟨expected, hexpected, h⟩ := run_evaluation h
  obtain ⟨actual, hactual, h⟩ := run_evaluation h
  refine ⟨expected, actual, hexpected, hactual, ?_⟩
  by_cases hsame : expected = actual
  · rw [if_pos hsame] at h
    exact .inl ⟨hsame, h⟩
  · rw [if_neg hsame] at h
    exact .inr ⟨hsame, (Except.ok.inj h).symm⟩

-- The search goes through the assignments that are drawn until it finds a difference.
theorem searched_of_firstDifference?
    (h : ((firstDifference? sampler specified explored remaining sample).run.run state).1 =
      .ok answer) :
    Searched sampler.slots specified explored sample
      ((sampler.drawn remaining sample).run state).1 answer := by
  induction remaining generalizing sample state with
  | zero =>
      obtain rfl := Except.ok.inj h
      exact .exhausted nofun
  | succ remaining ih =>
      rcases hround : (sampler.assignment sample).run state with ⟨assignment, next⟩
      have hdrawn : ((sampler.drawn (remaining + 1) sample).run state).1 =
          assignment :: ((sampler.drawn remaining (sample + 1)).run next).1 := by
        rw [Sampler.drawn, StateT.run_bind, hround]
        rfl
      rw [hdrawn]
      obtain ⟨expected, actual, hexpected, hactual, hround⟩ := firstDifference?_succ hround h
      rcases hround with ⟨rfl, hrest⟩ | ⟨hdiffer, rfl⟩
      · exact (ih hrest).cons ⟨expected, hexpected, hactual⟩
      · exact .ended (List.nil_append _).symm rfl ⟨nofun, hexpected, hactual, hdiffer⟩

end Search

-- Whatever either side depends on.
def mentioned (specified explored : List Branch) : List Atom :=
  (specified ++ explored).flatMap ofBranch

def mentionedSlots (specified explored : List Branch) : List Word :=
  slotsOf (mentioned specified explored)

-- The assignments that a query tries one after another, as they come from a supply.
def sampled {σ : Type} [Supply σ] (samples : Nat) (state : σ) (specified explored : List Branch) :
    List Assignment :=
  (((Sampler.ofAtoms (mentioned specified explored)).drawn samples 0).run state).1

-- A counterexample that is what it says: the first of the sampled assignments at which the two
-- sides can be told apart, and what each of them does there.
structure Genuine (sampled : List Assignment) (specified explored : List Branch)
    (found : Counterexample) : Prop where
  drawn : sampled[found.sample]? = some found.assignment
  before : ∀ earlier ∈ sampled.take found.sample, Alike earlier specified explored
  expected : outcome? found.assignment (mentionedSlots specified explored) specified =
    .ok found.expected
  actual : outcome? found.assignment (mentionedSlots specified explored) explored =
    .ok found.actual
  observable : ¬Alike found.assignment specified explored

-- What an answer says about the sampled assignments.
def Judges (sampled : List Assignment) (specified explored : List Branch) :
    Option Counterexample → Prop
  | none => ∀ assignment ∈ sampled, Alike assignment specified explored
  | some found => Genuine sampled specified explored found

section Answers

variable {specified explored : List Branch} {assignments : List Assignment}
  {answer : Option Counterexample}

theorem judges_of_searched
    (hliteral : ∀ branch ∈ specified ++ explored, branch.finalStore.LiteralKeys)
    (h : Searched (mentionedSlots specified explored) specified explored 0 assignments answer) :
    Judges assignments specified explored answer := by
  have halike : ∀ {assignment}, Agree (mentionedSlots specified explored) specified explored
      assignment → Alike assignment specified explored := by
    rintro assignment ⟨outcome, hexpected, hactual⟩
    exact (eq_iff_alike hliteral rfl hexpected hactual).mp rfl
  cases h with
  | exhausted hall => exact fun assignment hassignment => halike (hall assignment hassignment)
  | @ended before after found hsplit hsample hreports =>
      rw [Nat.zero_add] at hsample
      have hat : assignments[found.sample]? = some found.assignment := by
        rw [hsplit, hsample, List.getElem?_append_right (Nat.le_refl _), Nat.sub_self]
        rfl
      have hbefore : assignments.take found.sample = before := by
        rw [hsplit, hsample, List.take_left]
      refine ⟨hat, ?_, hreports.expected, hreports.actual, fun h => hreports.differ ?_⟩
      · rw [hbefore]
        exact fun earlier hearlier => halike (hreports.before earlier hearlier)
      · exact (eq_iff_alike hliteral rfl hreports.expected hreports.actual).mpr h

end Answers

-- Where no path leaves a write to an unknown slot, the outcomes of two sides are equal exactly if
-- nothing tells the sides apart in any slot there is. So the answer of a search is right about
-- every assignment that it draws.
theorem equivalence_observes_every_slot (specified explored : List Branch)
    (hliteral : ∀ branch ∈ specified ++ explored, branch.finalStore.LiteralKeys) :
    (∀ assignment expected actual,
      outcome? assignment (mentionedSlots specified explored) specified = .ok expected →
      outcome? assignment (mentionedSlots specified explored) explored = .ok actual →
        (expected = actual ↔ Alike assignment specified explored)) ∧
    (∀ (σ : Type) [Supply σ] (samples : Nat) (state : σ) (answer : Option Counterexample),
      ((equivalenceFrom samples specified explored).run.run state).1 = .ok answer →
        Judges (sampled samples state specified explored) specified explored answer) ∧
    ∀ (effort : Effort) (answer : Option Counterexample),
      effort.solver.equivalence specified explored = .ok answer →
        Judges (sampled effort.samples (Stream.ofSeed effort.seed) specified explored) specified
          explored answer := by
  have hjudges : ∀ (σ : Type) [Supply σ] (samples : Nat) (state : σ) answer,
      ((equivalenceFrom samples specified explored).run.run state).1 = .ok answer →
        Judges (sampled samples state specified explored) specified explored answer :=
    fun σ _ samples state answer h => judges_of_searched hliteral (searched_of_firstDifference? h)
  refine ⟨fun assignment expected actual => eq_iff_alike hliteral rfl, hjudges, ?_⟩
  intro effort answer h
  exact hjudges Stream effort.samples (Stream.ofSeed effort.seed) answer (mapError_eq_ok.mp h)

-- A deposit stores an amount, and an implementation of it clears everything. The extremes are drawn
-- first, and at the lower one nothing shows.
def depositSpecified : List Branch :=
  [.ofStore [] .empty (.write (.lit 0) (.var "amount") .abstract)]

def depositExplored : List Branch := [.ofStore [] .empty .empty]

def depositDifference : Counterexample where
  assignment := ⟨.ofList [("amount", Word.max)], .empty, 0, .ofList [(0, Word.max)]⟩
  expected := some ⟨[], .ofList [(0, Word.max)]⟩
  actual := some ⟨[], .ofList [(0, 0)]⟩
  sample := 1

theorem equivalence_observes_every_slot_deposit :
    Alike .empty depositSpecified depositExplored ∧
    (∀ assignment ∈ sampled 1 (Stream.ofSeed 7) depositSpecified depositExplored,
      Alike assignment depositSpecified depositExplored) ∧
    Genuine (sampled 2 (Stream.ofSeed 7) depositSpecified depositExplored) depositSpecified
      depositExplored depositDifference := by
  have hliteral : ∀ branch ∈ depositSpecified ++ depositExplored,
      branch.finalStore.LiteralKeys := by
    simp only [depositSpecified, depositExplored, List.cons_append, List.nil_append,
      List.forall_mem_cons]
    exact ⟨⟨⟨0, rfl⟩, trivial⟩, trivial, List.forall_mem_nil _⟩
  obtain ⟨hexact, hsupply, hsolver⟩ :=
    equivalence_observes_every_slot depositSpecified depositExplored hliteral
  refine ⟨?_, ?_, ?_⟩
  · exact (hexact .empty (some ⟨[], .ofList [(0, 0)]⟩) (some ⟨[], .ofList [(0, 0)]⟩)
      (by decide +kernel) (by decide +kernel)).mp rfl
  · exact hsupply Stream 1 (Stream.ofSeed 7) none (by decide +kernel)
  · exact hsolver ⟨2, 7, 0, 0⟩ (some depositDifference) (by decide +kernel)

end SpecRecovery.Sampling
