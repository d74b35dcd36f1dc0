import SpecRecovery.Exploration.Query
import SpecRecovery.Proofs.Machine.Flattening

namespace SpecRecovery.Machine

def State.success? : State → Option Branch
  | success branch => some branch
  | _ => none

namespace Leaf

variable {assignment : Assignment} {leaf : Leaf}

theorem conditions_toState (leaf : Leaf) :
    leaf.toState.conditions = leaf.path ++ leaf.state.conditions :=
  State.conditions_under leaf.path leaf.state

theorem allHold_toState_of_taken (h : allHold assignment leaf.path = .ok true) :
    allHold assignment leaf.toState.conditions = allHold assignment leaf.state.conditions := by
  rw [conditions_toState, allHold_append_of_holds h]

-- What keeps the end from being reached hides the conditions of its own.
theorem allHold_toState_of_closed (h : allHold assignment leaf.path = .ok false) :
    allHold assignment leaf.toState.conditions = .ok false := by
  rw [conditions_toState, allHold_append_of_fails h]

-- The successful path to an end.
def success? (leaf : Leaf) : Option Branch := leaf.toState.success?

theorem success?_eq_map (leaf : Leaf) :
    leaf.success? = leaf.state.success?.map (Branch.under leaf.path) := by
  obtain ⟨path, state⟩ := leaf
  cases state <;> rfl

theorem success?_eq_some {branch : Branch} : leaf.success? = some branch ↔
    ∃ own, leaf.state = .success own ∧ own.under leaf.path = branch := by
  obtain ⟨path, state⟩ := leaf
  cases state <;> simp [success?, State.success?, toState, State.under]

-- The successful path to an end is taken as the end is.
theorem conditions_of_success? {branch : Branch} (h : leaf.success? = some branch) :
    branch.conditions = leaf.toState.conditions := by
  obtain ⟨own, hstate, rfl⟩ := success?_eq_some.mp h
  rw [toState, hstate]
  rfl

end Leaf

end SpecRecovery.Machine

namespace SpecRecovery.Exploration

open Machine

variable {states : List State} {branches : List Branch} {error : ExplorationError}
  {assignment : Assignment} {leaves before after : List Leaf} {leaf : Leaf} {branch : Branch}

theorem successes_eq_ok : successes states = .ok branches ↔
    states.filter State.isUnfinished = [] ∧ branches = states.filterMap State.success? := by
  rw [← List.map_eq_nil_iff (f := State.describe), successes]
  cases (states.filter State.isUnfinished).map State.describe with
  | nil => exact ⟨fun h => ⟨rfl, (Except.ok.inj h).symm⟩, fun h => congrArg _ h.2.symm⟩
  | cons first rest => exact ⟨nofun, fun h => nomatch h.1⟩

theorem successes_eq_error : successes states = .error error ↔
    (∃ state ∈ states, state.isUnfinished) ∧
      error = .unfinished ((states.filter State.isUnfinished).map State.describe) := by
  have hsome : (∃ state ∈ states, state.isUnfinished) ↔
      (states.filter State.isUnfinished).map State.describe ≠ [] := by simp
  rw [hsome, successes]
  cases (states.filter State.isUnfinished).map State.describe with
  | nil => exact ⟨nofun, fun h => absurd rfl h.1⟩
  | cons first rest =>
      exact ⟨fun h => ⟨nofun, (Except.error.inj h).symm⟩, fun h => congrArg _ h.2.symm⟩

theorem filter_isUnfinished_flatten (program : Program) :
    program.flatten.filter State.isUnfinished =
      (program.leaves.filter fun leaf => leaf.state.isUnfinished).map Leaf.toState := by
  rw [Program.flatten_eq_map_leaves, List.filter_map]
  exact congrArg _ (List.filter_congr fun leaf _ =>
    State.isUnfinished_under leaf.path leaf.state)

theorem filterMap_success?_flatten (program : Program) :
    program.flatten.filterMap State.success? = program.leaves.filterMap Leaf.success? := by
  rw [Program.flatten_eq_map_leaves, List.filterMap_map]
  rfl

-- Of the successful paths only the one to the end that is reached can be taken.
theorem onlyTaken_success (honly : OnlyTaken assignment Leaf.path leaves before leaf after)
    (hstate : leaf.state = .success branch)
    (hown : allHold assignment branch.conditions = .ok true) :
    OnlyTaken assignment Branch.conditions (leaves.filterMap Leaf.success?)
      (before.filterMap Leaf.success?) (branch.under leaf.path)
      (after.filterMap Leaf.success?) := by
  have hsuccess : leaf.success? = some (branch.under leaf.path) :=
    Leaf.success?_eq_some.mpr ⟨branch, hstate, rfl⟩
  refine honly.filterMap hsuccess ?_ fun other kept hother hclosed => ?_
  · rw [Leaf.conditions_of_success? hsuccess, Leaf.allHold_toState_of_taken honly.taken, hstate]
    exact hown
  · rw [Leaf.conditions_of_success? hother, Leaf.allHold_toState_of_closed hclosed]

theorem not_taken_of_success? (honly : OnlyTaken assignment Leaf.path leaves before leaf after)
    (hnot : ∀ branch, leaf.state = .success branch →
      allHold assignment branch.conditions ≠ .ok true) :
    ∀ branch ∈ leaves.filterMap Leaf.success?,
      allHold assignment branch.conditions ≠ .ok true := by
  intro branch hbranch htaken
  obtain ⟨other, hother, hsuccess⟩ := List.mem_filterMap.mp hbranch
  rw [Leaf.conditions_of_success? hsuccess] at htaken
  rw [honly.split, List.mem_append, List.mem_cons, or_left_comm, ← List.mem_append] at hother
  rcases hother with rfl | hother
  · obtain ⟨own, hstate, _⟩ := Leaf.success?_eq_some.mp hsuccess
    rw [Leaf.allHold_toState_of_taken honly.taken, hstate] at htaken
    exact hnot own hstate htaken
  · rw [Leaf.allHold_toState_of_closed (honly.others other hother)] at htaken
    exact nomatch htaken

-- The ends of a program share out its inputs. A run reaches the one end whose path is taken, all
-- others fail without an error, and so leaving out what does not succeed leaves the first
-- successful path that is taken the one that a run takes, if that succeeds.
theorem flatten_partitions (program : Program) :
    program.flatten = program.leaves.map Leaf.toState ∧
    (∀ error, successes program.flatten = .error error ↔
      (∃ leaf ∈ program.leaves, leaf.state.isUnfinished) ∧
        error = .unfinished ((program.leaves.filter fun leaf => leaf.state.isUnfinished).map
          fun leaf => leaf.toState.describe)) ∧
    ∀ assignment position state, program.run assignment = .ok (position, state) →
      ∃ before leaf after, before.length = position ∧ leaf.state = state ∧
        OnlyTaken assignment Leaf.path program.leaves before leaf after ∧
        (∀ other ∈ before ++ after, allHold assignment other.toState.conditions = .ok false) ∧
        ∀ branches, successes program.flatten = .ok branches →
          (∀ branch, state = .success branch →
            allHold assignment branch.conditions = .ok true →
            OnlyTaken assignment Branch.conditions branches (before.filterMap Leaf.success?)
              (branch.under leaf.path) (after.filterMap Leaf.success?)) ∧
          ((∀ branch, state = .success branch →
              allHold assignment branch.conditions ≠ .ok true) →
            ∀ branch ∈ branches, allHold assignment branch.conditions ≠ .ok true) := by
  refine ⟨program.flatten_eq_map_leaves, fun error => ?_, fun assignment position state hrun => ?_⟩
  · have hsome : (∃ state ∈ program.flatten, state.isUnfinished) ↔
        ∃ leaf ∈ program.leaves, leaf.state.isUnfinished := by
      simp [program.flatten_eq_map_leaves, Leaf.toState, State.isUnfinished_under]
    rw [successes_eq_error, filter_isUnfinished_flatten, List.map_map, hsome]
    rfl
  · obtain ⟨before, leaf, after, honly, hposition, rfl⟩ := Program.exists_onlyTaken hrun
    refine ⟨before, leaf, after, hposition, rfl, honly, fun other hother =>
      Leaf.allHold_toState_of_closed (honly.others other hother), fun branches hbranches => ?_⟩
    rw [successes_eq_ok, filterMap_success?_flatten] at hbranches
    obtain ⟨_, rfl⟩ := hbranches
    exact ⟨fun branch => onlyTaken_success honly, not_taken_of_success? honly⟩

-- A payout that is refused while paused and skips an amount of zero.
def paid : Branch := .ofStore [] .empty (.write (.lit 0) (.var "amount") .abstract)

def skipped : Branch := .ofStore [] .empty .abstract

def payout : Program :=
  .ite (.var "paused") (.done (.revert [] "paused"))
    (.ite (.var "amount") (.done (.success paid)) (.done (.success skipped)))

def paying : Assignment := { Assignment.empty with calldata := .ofList [("amount", 5)] }

theorem flatten_partitions_payout :
    payout.run paying = .ok (1, .success paid) ∧
    ∃ before leaf after branches, before.length = 1 ∧
      OnlyTaken paying Leaf.path payout.leaves before leaf after ∧
      successes payout.flatten = .ok branches ∧ branches.length = 2 ∧
      OnlyTaken paying Branch.conditions branches (before.filterMap Leaf.success?)
        (paid.under leaf.path) (after.filterMap Leaf.success?) := by
  have hrun : payout.run paying = .ok (1, .success paid) := by decide +kernel
  obtain ⟨before, leaf, after, hposition, _, honly, _, hbranches⟩ :=
    (flatten_partitions payout).2.2 paying 1 (.success paid) hrun
  exact ⟨hrun, before, leaf, after, _, hposition, honly, rfl, rfl,
    (hbranches _ rfl).1 paid rfl rfl⟩

end SpecRecovery.Exploration
