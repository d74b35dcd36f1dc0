import SpecRecovery.Sampling.Solver

namespace SpecRecovery.Sampling

variable {σ α β : Type}

-- Draws go on where the previous ones stopped, and a failure ends everything.
theorem run_draw (work : StateM σ α) (next : α → ExceptT Unevaluable (StateM σ) β)
    (state : σ) : ((liftM work >>= next).run.run state) =
      (next (work.run state).1).run.run (work.run state).2 := rfl

theorem run_evaluation {result : Except Unevaluable α}
    {next : α → ExceptT Unevaluable (StateM σ) β} {state : σ} {value : β}
    (h : ((liftM result >>= next).run.run state).1 = .ok value) :
    ∃ first, result = .ok first ∧ ((next first).run.run state).1 = .ok value := by
  cases result with
  | error reason => exact nomatch h
  | ok first => exact ⟨first, rfl, h⟩

-- A computation yields a value from some state of the supply.
def Yields (work : ExceptT Unevaluable (StateM σ) α) (value : α) : Prop :=
  ∃ state, (work.run.run state).1 = .ok value

theorem run_bind {work : ExceptT Unevaluable (StateM σ) α}
    {next : α → ExceptT Unevaluable (StateM σ) β} {state : σ} {value : β}
    (h : ((work >>= next).run.run state).1 = .ok value) :
    ∃ first later, (work.run.run state).1 = .ok first ∧
      ((next first).run.run later).1 = .ok value := by
  rw [ExceptT.run_bind, StateT.run_bind] at h
  rcases hwork : work.run.run state with ⟨result, later⟩
  rw [hwork] at h
  cases result with
  | error reason => exact nomatch h
  | ok first => exact ⟨first, later, rfl, h⟩

-- What holds of all that a step can draw holds of all that a list of steps draws.
theorem forall_mem_run_mapM {work : α → StateM σ β} {holds : β → Prop}
    (h : ∀ input state, holds ((work input).run state).1) (inputs : List α) (state : σ) :
    ∀ output ∈ ((inputs.mapM work).run state).1, holds output := by
  induction inputs generalizing state with
  | nil => exact List.forall_mem_nil _
  | cons input rest ih =>
      rw [List.mapM_cons, StateT.run_bind]
      exact List.forall_mem_cons.mpr ⟨h input state, ih _⟩

-- The elements that a filter keeps were accepted, and the others were refused.
structure Sifted (test : α → ExceptT Unevaluable (StateM σ) Bool) (items kept : List α) :
    Prop where
  sublist : kept.Sublist items
  accepted : ∀ item ∈ kept, Yields (test item) true
  refused : ∀ item ∈ items, item ∉ kept → Yields (test item) false

theorem sifted_of_filterAuxM {test : α → ExceptT Unevaluable (StateM σ) Bool}
    {items before backwards : List α} {state : σ}
    (h : ((items.filterAuxM test before).run.run state).1 = .ok backwards) :
    ∃ kept, backwards = kept.reverse ++ before ∧ Sifted test items kept := by
  induction items generalizing before state with
  | nil =>
      obtain rfl := Except.ok.inj h
      exact ⟨[], rfl, .slnil, List.forall_mem_nil _, List.forall_mem_nil _⟩
  | cons item rest ih =>
      obtain ⟨truth, later, htruth, h⟩ := run_bind h
      obtain ⟨kept, rfl, hkept⟩ := ih h
      cases truth with
      | true =>
          refine ⟨item :: kept, by simp, hkept.sublist.cons_cons item, ?_, ?_⟩
          · exact List.forall_mem_cons.mpr ⟨⟨state, htruth⟩, hkept.accepted⟩
          · intro other hother hmem
            rw [List.mem_cons, not_or] at hmem
            have hrest := (List.mem_cons.mp hother).resolve_left hmem.1
            exact hkept.refused other hrest hmem.2
      | false =>
          refine ⟨kept, rfl, hkept.sublist.cons item, hkept.accepted, ?_⟩
          intro other hother hmem
          rcases List.mem_cons.mp hother with rfl | hrest
          · exact ⟨state, htruth⟩
          · exact hkept.refused other hrest hmem

theorem sifted_of_filterM {test : α → ExceptT Unevaluable (StateM σ) Bool}
    {items kept : List α} {state : σ}
    (h : ((items.filterM test).run.run state).1 = .ok kept) : Sifted test items kept := by
  obtain ⟨backwards, later, hbackwards, h⟩ := run_bind h
  obtain ⟨found, rfl, hfound⟩ := sifted_of_filterAuxM hbackwards
  obtain rfl := Except.ok.inj h
  rw [List.append_nil, List.reverse_reverse]
  exact hfound

end SpecRecovery.Sampling
