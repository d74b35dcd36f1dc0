import SpecRecovery.Proofs.Machine.Lookup
import SpecRecovery.Proofs.Result
import SpecRecovery.Proofs.Sampling.Literal
import SpecRecovery.Proofs.Sampling.Run
import SpecRecovery.Proofs.Table.Ascending
import SpecRecovery.Proofs.Word.Integer

namespace SpecRecovery

theorem Selector.toWord_ofWord {selector : Word} (h : selector.toNat < twoTo 32) :
    (ofWord selector).toWord = selector := by
  have hwords : twoTo 32 = 2 ^ 32 := rfl
  apply BitVec.eq_of_toNat_eq
  rw [toWord, ofWord, BitVec.toNat_setWidth, BitVec.toNat_setWidth]
  omega

theorem Selector.ofWord_toWord (selector : Selector) : ofWord selector.toWord = selector := by
  rw [ofWord, toWord, BitVec.setWidth_setWidth_of_le selector.code (by decide),
    BitVec.setWidth_eq]

theorem Selector.code_lt_of_lt {first second : Word} (hfirst : first.toNat < twoTo 32)
    (hsecond : second.toNat < twoTo 32) (h : first < second) :
    (ofWord first).code < (ofWord second).code := by
  have hwords : twoTo 32 = 2 ^ 32 := rfl
  rw [BitVec.lt_def] at h ⊢
  rw [ofWord, ofWord, BitVec.toNat_setWidth, BitVec.toNat_setWidth]
  omega

namespace Sampling

open Machine SpecRecovery.Random

-- A call with the selector and nothing but zeros besides.
def zeroCall (selector : Word) : Assignment := { Assignment.empty with selector := selector }

-- Some path that does not revert is taken, which may be one that was given up.
def Reached (assignment : Assignment) (runtime : List State) : Prop :=
  ∃ state ∈ runtime, (state.isSuccess || state.isUnfinished) = true ∧
    allHold assignment state.conditions = .ok true

section Reaching

variable {assignment : Assignment} {runtime : List State}

theorem reached_iff_of_reaches {truth : Bool} (h : reaches assignment runtime = .ok truth) :
    truth = true ↔ Reached assignment runtime := by
  unfold Reached
  induction runtime with
  | nil =>
      obtain rfl := Except.ok.inj h
      simp
  | cons state rest ih =>
      rw [List.exists_mem_cons_iff]
      -- A path that may end well is tried before those behind it.
      have htried (hstate : (do
          if ← allHold assignment state.conditions then return true
          else reaches assignment rest) = Except.ok truth) :
          truth = true ↔ allHold assignment state.conditions = .ok true ∨
            ∃ other ∈ rest, (other.isSuccess || other.isUnfinished) = true ∧
              allHold assignment other.conditions = .ok true := by
        obtain ⟨taken, htaken, hstate⟩ := bind_eq_ok.mp hstate
        cases taken with
        | true =>
            obtain rfl := Except.ok.inj hstate
            exact iff_of_true rfl (.inl htaken)
        | false =>
            rw [ih hstate, htaken]
            exact (or_iff_right nofun).symm
      cases state with
      | revert conditions reason => simpa [State.isSuccess, State.isUnfinished] using ih h
      | success branch => simpa [State.isSuccess] using htried h
      | unfinished conditions reason => simpa [State.isUnfinished] using htried h

theorem reached_congr {other : Assignment} (h : assignment.SameValues other) :
    Reached assignment runtime ↔ Reached other runtime := by
  simp only [Reached, allHold_congr h]

end Reaching

section Search

variable {σ : Type} [Supply σ] {sampler : Sampler} {runtime : List State} {selector : Word}
  {remaining sample : Nat} {state : σ}

theorem run_environmentValueAt_zero (sampler : Sampler) (value : Environment) (state : σ) :
    ((sampler.environmentValueAt 0 value).run state).1 = 0 := by
  rcases hdraw : (drawChance 3 : StateM σ Bool).run state with ⟨chance, later⟩
  simp only [Sampler.environmentValueAt, Sampler.valueAt, pure_bind]
  split
  · rw [StateT.run_bind, hdraw]
    cases chance with
    | true => exact BitVec.zero_and
    | false => rfl
  · rfl

-- All that the first sample holds is zero, apart from the selector.
theorem sameValues_assignment_zero (state : σ) :
    { ((sampler.assignment 0).run state).1 with selector := selector }.SameValues
      (zeroCall selector) where
  calldata name := Table.getD_find?_ofList (forall_mem_run_mapM (fun _ _ => rfl) _ _) name
  environment value :=
    Table.getD_find?_ofList (forall_mem_run_mapM (run_environmentValueAt_zero sampler) _ _) value
  selector := rfl
  storage slot := Table.getD_find?_ofList (forall_mem_run_mapM (fun _ _ => rfl) _ _) slot

theorem reached_of_reachesWith
    (h : Yields (reachesWith sampler runtime selector remaining sample : ExceptT _ (StateM σ) _)
      true) :
    ∃ assignment, assignment.selector = selector ∧ Reached assignment runtime := by
  obtain ⟨state, h⟩ := h
  induction remaining generalizing sample state with
  | zero => exact nomatch h
  | succ remaining ih =>
      rw [reachesWith, run_draw] at h
      obtain ⟨truth, htruth, h⟩ := run_evaluation h
      cases truth with
      | true => exact ⟨_, rfl, (reached_iff_of_reaches htruth).mp rfl⟩
      | false => exact ih _ h

theorem not_reached_of_reachesWith
    (h : Yields (reachesWith sampler runtime selector (remaining + 1) 0 :
      ExceptT _ (StateM σ) _) false) :
    ¬Reached (zeroCall selector) runtime := by
  obtain ⟨state, h⟩ := h
  rw [reachesWith, run_draw] at h
  obtain ⟨truth, htruth, h⟩ := run_evaluation h
  cases truth with
  | true => exact nomatch h
  | false =>
      rw [← reached_congr (sameValues_assignment_zero state), ← reached_iff_of_reaches htruth]
      exact Bool.false_ne_true

end Search

section Candidates

variable {declared : List Selector} {runtime : List State} {random : List Word} {selector : Word}

-- Whatever the states depend on.
def dispatched (runtime : List State) : Sampler := .ofAtoms (runtime.flatMap ofState)

-- The selectors that are tried, of which some are drawn.
def candidates (declared : List Selector) (runtime : List State) (random : List Word) :
    List Word :=
  (Table.ascendingKeys ((dispatched runtime).selectors ++ random)).filter fun selector =>
    !(declared.map Selector.toWord).contains selector

theorem mem_candidates_iff :
    selector ∈ candidates declared runtime random ↔
      (selector ∈ (dispatched runtime).selectors ∨ selector ∈ random) ∧
        selector ∉ declared.map Selector.toWord := by
  rw [candidates, List.mem_filter, Table.mem_ascendingKeys, List.mem_append, Bool.not_eq_true',
    List.contains_eq_mem, decide_eq_false_iff_not]

theorem fits_of_mem_candidates (hrandom : ∀ drawn ∈ random, drawn.toNat < twoTo 32)
    (h : selector ∈ candidates declared runtime random) : selector.toNat < twoTo 32 := by
  cases (mem_candidates_iff.mp h).1 with
  | inl hliteral => exact (mem_selectors_iff.mp hliteral).2
  | inr hdrawn => exact hrandom selector hdrawn

theorem undeclared_of_mem_candidates (hrandom : ∀ drawn ∈ random, drawn.toNat < twoTo 32)
    (h : selector ∈ candidates declared runtime random) : Selector.ofWord selector ∉ declared := by
  intro hdeclared
  have hword := List.mem_map_of_mem (f := Selector.toWord) hdeclared
  rw [Selector.toWord_ofWord (fits_of_mem_candidates hrandom h)] at hword
  exact (mem_candidates_iff.mp h).2 hword

-- The selectors of ascending words ascend.
theorem ascending_ofWord {missing : List Word}
    (hrandom : ∀ drawn ∈ random, drawn.toNat < twoTo 32)
    (h : missing.Sublist (candidates declared runtime random)) :
    (missing.map Selector.ofWord).Pairwise fun first second => first.code < second.code := by
  have hkeys := Table.ascending_ascendingKeys ((dispatched runtime).selectors ++ random)
  have hmissing := (hkeys.sublist List.filter_sublist).sublist h
  rw [List.pairwise_map]
  refine hmissing.imp_of_mem fun {first second} hfirst hsecond hlt => ?_
  exact Selector.code_lt_of_lt (fits_of_mem_candidates hrandom (h.subset hfirst))
    (fits_of_mem_candidates hrandom (h.subset hsecond)) (compareOfLessAndEq_eq_lt.mp hlt)

end Candidates

section Answers

variable {σ : Type} [Supply σ] {selectorSamples tries : Nat} {declared : List Selector}
  {runtime : List State} {answer : Coverage} {state : σ}

theorem fits_of_drawSelectors (count : Nat) (state : σ) :
    ∀ drawn ∈ ((drawSelectors count).run state).1, drawn.toNat < twoTo 32 := by
  induction count generalizing state with
  | zero => exact List.forall_mem_nil _
  | succ count ih =>
      refine List.forall_mem_cons.mpr ⟨?_, ih _⟩
      rw [BitVec.toNat_ofNat]
      exact Nat.lt_of_le_of_lt (Nat.mod_le _ _) (Supply.next state).1.toNat_lt

-- The candidates are sifted, and those that are left are reported.
theorem exists_sifted_of_exhaustivenessFrom
    (h : ((exhaustivenessFrom selectorSamples tries declared runtime).run.run state).1 =
      .ok answer) :
    ∃ random missing, (∀ drawn ∈ random, drawn.toNat < twoTo 32) ∧
      Sifted (σ := σ) (fun selector => reachesWith (dispatched runtime) runtime selector tries 0)
        (candidates declared runtime random) missing ∧
      answer = if missing.isEmpty then .covered else .missing (missing.map Selector.ofWord) := by
  rw [exhaustivenessFrom, run_draw] at h
  obtain ⟨missing, later, hmissing, h⟩ := run_bind h
  refine ⟨_, missing, fits_of_drawSelectors selectorSamples state, sifted_of_filterM hmissing, ?_⟩
  split at h
  · next hempty =>
      rw [if_pos hempty]
      exact (Except.ok.inj h).symm
  · next hsome =>
      rw [if_neg hsome]
      exact (Except.ok.inj h).symm

end Answers

-- What is reported as missing: undeclared selectors in order, each with a call that does not
-- revert.
structure Missed (declared : List Selector) (runtime : List State) (missing : List Selector) :
    Prop where
  nonempty : missing ≠ []
  ascending : missing.Pairwise fun first second => first.code < second.code
  undeclared : ∀ selector ∈ missing, selector ∉ declared
  reached : ∀ selector ∈ missing, ∃ assignment, assignment.selector = selector.toWord ∧
    Reached assignment runtime

-- A constant that the code compares with, and that a call of nothing but zeros besides gets past.
structure Dispatched (declared : List Selector) (runtime : List State) (literal : Word) :
    Prop where
  mentioned : ∃ state ∈ runtime, ∃ cond ∈ state.conditions, cond.Mentions literal
  fits : literal.toNat < twoTo 32
  undeclared : Selector.ofWord literal ∉ declared
  reached : Reached (zeroCall literal) runtime

-- An answer that reports nothing but missing selectors, and overlooks no constant.
structure Reliable (declared : List Selector) (runtime : List State) (tries : Nat)
    (answer : Coverage) : Prop where
  genuine : ∀ missing, answer = .missing missing → Missed declared runtime missing
  complete : 1 ≤ tries → ∀ literal, Dispatched declared runtime literal →
    ∃ missing, answer = .missing missing ∧ Selector.ofWord literal ∈ missing

section Answers

variable {σ : Type} [Supply σ] {tries : Nat} {declared : List Selector} {runtime : List State}
  {random missing : List Word}

theorem missed_of_sifted (hrandom : ∀ drawn ∈ random, drawn.toNat < twoTo 32)
    (hsifted : Sifted (σ := σ)
      (fun selector => reachesWith (dispatched runtime) runtime selector tries 0)
      (candidates declared runtime random) missing) (hsome : missing ≠ []) :
    Missed declared runtime (missing.map Selector.ofWord) where
  nonempty := mt List.map_eq_nil_iff.mp hsome
  ascending := ascending_ofWord hrandom hsifted.sublist
  undeclared := by
    rw [List.forall_mem_map]
    exact fun selector hselector =>
      undeclared_of_mem_candidates hrandom (hsifted.sublist.subset hselector)
  reached := by
    rw [List.forall_mem_map]
    intro selector hselector
    have hcandidate := hsifted.sublist.subset hselector
    rw [Selector.toWord_ofWord (fits_of_mem_candidates hrandom hcandidate)]
    exact reached_of_reachesWith (hsifted.accepted selector hselector)

-- The first sample with a constant is the call of nothing but zeros besides.
theorem mem_of_sifted {literal : Word}
    (hsifted : Sifted (σ := σ)
      (fun selector => reachesWith (dispatched runtime) runtime selector tries 0)
      (candidates declared runtime random) missing) (htries : 1 ≤ tries)
    (h : Dispatched declared runtime literal) : literal ∈ missing := by
  obtain ⟨more, rfl⟩ := Nat.exists_eq_add_of_le' htries
  obtain ⟨state, hstate, cond, hcond, hmentions⟩ := h.mentioned
  have hatom : .literal literal ∈ runtime.flatMap ofState :=
    List.mem_flatMap.mpr ⟨state, hstate,
      List.mem_flatMap.mpr ⟨cond, hcond, (mem_ofCond_iff cond).mpr hmentions⟩⟩
  have hcandidate : literal ∈ candidates declared runtime random := by
    refine mem_candidates_iff.mpr ⟨.inl (mem_selectors_iff.mpr ⟨hatom, h.fits⟩), ?_⟩
    rw [List.mem_map]
    rintro ⟨selector, hselector, rfl⟩
    exact h.undeclared ((Selector.ofWord_toWord selector).symm ▸ hselector)
  by_contra hmissed
  exact not_reached_of_reachesWith (hsifted.refused literal hcandidate hmissed) h.reached

end Answers

-- Selectors that are reported as missing are reached by some call although nobody declares them,
-- and no constant of the code that a call with zeros gets past is overlooked, whatever is drawn.
theorem missing_selectors_genuine_and_complete (declared : List Selector) (runtime : List State) :
    (∀ (σ : Type) [Supply σ] (selectorSamples tries : Nat) (state : σ) (answer : Coverage),
      ((exhaustivenessFrom selectorSamples tries declared runtime).run.run state).1 = .ok answer →
        Reliable declared runtime tries answer) ∧
    ∀ (effort : Effort) (answer : Coverage),
      effort.solver.exhaustiveness declared runtime = .ok answer →
        Reliable declared runtime effort.assignmentsPerSelector answer := by
  have hreliable : ∀ (σ : Type) [Supply σ] (selectorSamples tries : Nat) (state : σ) answer,
      ((exhaustivenessFrom selectorSamples tries declared runtime).run.run state).1 = .ok answer →
        Reliable declared runtime tries answer := by
    intro σ _ selectorSamples tries state answer h
    obtain ⟨random, missing, hrandom, hsifted, rfl⟩ := exists_sifted_of_exhaustivenessFrom h
    cases missing with
    | nil =>
        refine ⟨nofun, fun htries literal hliteral => ?_⟩
        exact nomatch mem_of_sifted hsifted htries hliteral
    | cons first rest =>
        refine ⟨?_, fun htries literal hliteral => ⟨_, rfl, ?_⟩⟩
        · rintro _ ⟨⟩
          exact missed_of_sifted hrandom hsifted (List.cons_ne_nil _ _)
        · exact List.mem_map_of_mem (mem_of_sifted hsifted htries hliteral)
  exact ⟨hreliable, fun effort answer h => hreliable Stream effort.selectorSamples
    effort.assignmentsPerSelector (Stream.ofSeed effort.seed) answer (mapError_eq_ok.mp h)⟩

-- The running code answers to a selector that is not declared, by a path that was given up.
def relayDeclared : List Selector := [⟨0x12345678⟩]

def relayRuntime : List State :=
  [.revert [] "fallback",
    .unfinished [.eqWords .selector (.lit 0xCAFE), .leq (.env .callValue) (.var "limit")] "loop"]

theorem missing_selectors_genuine_and_complete_relay :
    Missed relayDeclared relayRuntime [⟨0xCAFE⟩] ∧ Dispatched relayDeclared relayRuntime 0xCAFE ∧
      Reliable relayDeclared relayRuntime 0 .covered := by
  obtain ⟨hsupply, hsolver⟩ := missing_selectors_genuine_and_complete relayDeclared relayRuntime
  refine ⟨?_, ⟨⟨_, .tail _ (.head _), _, .head _, .inr rfl⟩, ?_, ?_, _, .tail _ (.head _), ?_⟩, ?_⟩
  · exact (hsolver ⟨0, 7, 0, 1⟩ (.missing [⟨0xCAFE⟩]) (by decide +kernel)).genuine _ rfl
  · decide
  · decide
  · decide
  · exact hsupply Stream 0 0 (Stream.ofSeed 7) .covered (by decide +kernel)

end Sampling

end SpecRecovery
