import SpecRecovery.Machine.Evaluation
import SpecRecovery.Machine.Program
import SpecRecovery.Proofs.Result

namespace SpecRecovery.Machine

section Conditions

variable {assignment : Assignment}

theorem allHold_cons_of_holds {cond : Cond} (h : cond.holds assignment = .ok true)
    (rest : List Cond) : allHold assignment (cond :: rest) = allHold assignment rest := by
  rw [allHold, h]
  rfl

-- A condition that fails hides all that come after it.
theorem allHold_cons_of_fails {cond : Cond} (h : cond.holds assignment = .ok false)
    (rest : List Cond) : allHold assignment (cond :: rest) = .ok false := by
  rw [allHold, h]
  rfl

theorem allHold_append (first second : List Cond) :
    allHold assignment (first ++ second) = do
      if ← allHold assignment first then allHold assignment second else return false := by
  induction first with
  | nil => rfl
  | cons cond rest ih =>
      rw [List.cons_append, allHold, allHold, ih]
      cases cond.holds assignment with
      | error reason => rfl
      | ok truth => cases truth <;> rfl

theorem allHold_append_of_holds {first : List Cond} (h : allHold assignment first = .ok true)
    (second : List Cond) : allHold assignment (first ++ second) = allHold assignment second := by
  rw [allHold_append, h]
  rfl

theorem allHold_append_of_fails {first : List Cond} (h : allHold assignment first = .ok false)
    (second : List Cond) : allHold assignment (first ++ second) = .ok false := by
  rw [allHold_append, h]
  rfl

end Conditions

-- An element of a list whose conditions all hold, where those of every other element fail without
-- an error.
structure OnlyTaken {α : Type} (assignment : Assignment) (conditions : α → List Cond)
    (all before : List α) (one : α) (after : List α) : Prop where
  split : all = before ++ one :: after
  taken : allHold assignment (conditions one) = .ok true
  others : ∀ other ∈ before ++ after, allHold assignment (conditions other) = .ok false

namespace OnlyTaken

variable {α β : Type} {assignment : Assignment} {conditions : α → List Cond}
  {all before after more : List α} {one : α}

theorem append (h : OnlyTaken assignment conditions all before one after)
    (hmore : ∀ other ∈ more, allHold assignment (conditions other) = .ok false) :
    OnlyTaken assignment conditions (all ++ more) before one (after ++ more) where
  split := by rw [h.split, List.append_assoc, List.cons_append]
  taken := h.taken
  others := by
    rw [← List.append_assoc, List.forall_mem_append]
    exact ⟨h.others, hmore⟩

theorem prepend (h : OnlyTaken assignment conditions all before one after)
    (hmore : ∀ other ∈ more, allHold assignment (conditions other) = .ok false) :
    OnlyTaken assignment conditions (more ++ all) (more ++ before) one after where
  split := by rw [h.split, List.append_assoc]
  taken := h.taken
  others := by
    rw [List.append_assoc, List.forall_mem_append]
    exact ⟨hmore, h.others⟩

-- What a change keeps of the elements may drop some of the others.
theorem filterMap {conditions' : β → List Cond} {change : α → Option β} {image : β}
    (h : OnlyTaken assignment conditions all before one after) (hone : change one = some image)
    (htaken : allHold assignment (conditions' image) = .ok true)
    (hothers : ∀ other kept, change other = some kept →
      allHold assignment (conditions other) = .ok false →
        allHold assignment (conditions' kept) = .ok false) :
    OnlyTaken assignment conditions' (all.filterMap change) (before.filterMap change) image
      (after.filterMap change) where
  split := by rw [h.split, List.filterMap_append, List.filterMap_cons_some hone]
  taken := htaken
  others := by
    intro kept hkept
    rw [← List.filterMap_append] at hkept
    obtain ⟨other, hother, hchange⟩ := List.mem_filterMap.mp hkept
    exact hothers other kept hchange (h.others other hother)

end OnlyTaken

-- That a word is zero, as the two sides of a conditional assume it or its negation.
def Expr.vanishes (condition : Expr) : Cond := .eqWords condition (.lit 0)

theorem Expr.holds_vanishes {assignment : Assignment} {condition : Expr} {word : Word}
    (h : condition.eval assignment = .ok word) :
    condition.vanishes.holds assignment = .ok (word == 0) ∧
      (Cond.neg condition.vanishes).holds assignment = .ok !(word == 0) := by
  have hzero : condition.vanishes.holds assignment = .ok (word == 0) := by
    rw [vanishes, Cond.eqWords, Cond.holds, h]
    rfl
  refine ⟨hzero, ?_⟩
  rw [Cond.holds, hzero]
  rfl

-- An end of a program, and the conditions that lead to it, the outermost first.
structure Leaf where
  path : List Cond
  state : State

namespace Leaf

def under (cond : Cond) (leaf : Leaf) : Leaf := ⟨cond :: leaf.path, leaf.state⟩

-- The end as it stands alone, with the conditions that lead to it before its own.
def toState (leaf : Leaf) : State := leaf.state.under leaf.path

variable {assignment : Assignment} {cond : Cond} {leaf : Leaf} {leaves before after : List Leaf}

theorem onlyTaken_under (h : OnlyTaken assignment path leaves before leaf after)
    (hcond : cond.holds assignment = .ok true) :
    OnlyTaken assignment path (leaves.map (under cond)) (before.map (under cond))
      (leaf.under cond) (after.map (under cond)) := by
  simp only [← List.filterMap_eq_map]
  refine h.filterMap rfl ((allHold_cons_of_holds hcond _).trans h.taken) ?_
  rintro other _ ⟨⟩ hother
  exact (allHold_cons_of_holds hcond _).trans hother

theorem fails_under (hcond : cond.holds assignment = .ok false) (leaves : List Leaf) :
    ∀ other ∈ leaves.map (under cond), allHold assignment other.path = .ok false := by
  rw [List.forall_mem_map]
  exact fun other _ => allHold_cons_of_fails hcond other.path

end Leaf

namespace State

theorem conditions_under (path : List Cond) (state : State) :
    (state.under path).conditions = path ++ state.conditions := by
  cases state <;> rfl

theorem isUnfinished_under (path : List Cond) (state : State) :
    (state.under path).isUnfinished = state.isUnfinished := by
  cases state <;> rfl

end State

namespace Program

variable {assignment : Assignment} {state : State} {position : Nat}

-- The ends from left to right.
def leaves : Program → List Leaf
  | done state => [⟨[], state⟩]
  | ite condition first second =>
      first.leaves.map (.under (.neg condition.vanishes)) ++
        second.leaves.map (.under condition.vanishes)

-- The end that a run takes and how many ends stand left of it. A run takes the first side of a
-- conditional exactly if its condition is not zero.
def run (assignment : Assignment) : Program → Except Unevaluable (Nat × State)
  | done state => return (0, state)
  | ite condition first second => do
      if (← condition.eval assignment) ≠ 0 then first.run assignment
      else
        let (position, state) ← second.run assignment
        return (first.leaves.length + position, state)

-- The path collects the conditions from the outside in.
theorem flattenBelow_eq_map_leaves (path : List Cond) (program : Program) :
    program.flattenBelow path =
      program.leaves.map fun leaf => leaf.state.under (path ++ leaf.path) := by
  induction program generalizing path with
  | done state => simp [flattenBelow, leaves]
  | ite condition first second ihfirst ihsecond =>
      rw [flattenBelow, ihfirst, ihsecond, leaves, List.map_append, List.map_map, List.map_map]
      simp only [Function.comp_def, Leaf.under, List.append_assoc, List.cons_append,
        List.nil_append, Expr.vanishes]

theorem flatten_eq_map_leaves (program : Program) :
    program.flatten = program.leaves.map Leaf.toState := by
  rw [flatten, flattenBelow_eq_map_leaves]
  rfl

-- At each conditional one of the two sides is run, and every end of the other is closed off by the
-- first condition of its path.
theorem exists_onlyTaken {program : Program}
    (h : program.run assignment = .ok (position, state)) :
    ∃ before leaf after, OnlyTaken assignment Leaf.path program.leaves before leaf after ∧
      before.length = position ∧ leaf.state = state := by
  induction program generalizing position with
  | done final =>
      obtain ⟨rfl, rfl⟩ := Prod.mk.inj (Except.ok.inj h)
      exact ⟨[], ⟨[], final⟩, [], ⟨rfl, rfl, by simp⟩, rfl, rfl⟩
  | ite condition first second ihfirst ihsecond =>
      obtain ⟨word, hword, h⟩ := bind_eq_ok.mp h
      obtain ⟨hzero, hnonzero⟩ := Expr.holds_vanishes hword
      by_cases hw : word = 0
      · rw [if_neg (not_not.mpr hw)] at h
        rw [beq_iff_eq.mpr hw] at hzero hnonzero
        obtain ⟨⟨inner, end_⟩, hrun, h⟩ := bind_eq_ok.mp h
        obtain ⟨rfl, rfl⟩ := Prod.mk.inj (Except.ok.inj h)
        obtain ⟨before, leaf, after, honly, rfl, hstate⟩ := ihsecond hrun
        exact ⟨_, _, _, (Leaf.onlyTaken_under honly hzero).prepend
          (Leaf.fails_under hnonzero first.leaves), by simp, hstate⟩
      · rw [if_pos hw] at h
        rw [beq_eq_false_iff_ne.mpr hw] at hzero hnonzero
        obtain ⟨before, leaf, after, honly, rfl, hstate⟩ := ihfirst h
        exact ⟨_, _, _, (Leaf.onlyTaken_under honly hnonzero).append
          (Leaf.fails_under hzero second.leaves), by simp, hstate⟩

end Program

end SpecRecovery.Machine
