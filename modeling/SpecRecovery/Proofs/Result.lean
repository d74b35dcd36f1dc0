import Mathlib.Data.List.Forall2

namespace SpecRecovery

variable {ε ε' α β : Type}

theorem bind_eq_ok {result : Except ε α} {next : α → Except ε β} {value : β} :
    (result >>= next) = .ok value ↔ ∃ first, result = .ok first ∧ next first = .ok value := by
  cases result with
  | error reason => exact ⟨fun h => (nomatch h), fun ⟨_, h, _⟩ => (nomatch h)⟩
  | ok first => exact ⟨fun h => ⟨first, rfl, h⟩, fun ⟨_, h, hnext⟩ => Except.ok.inj h ▸ hnext⟩

theorem bind_eq_error {result : Except ε α} {next : α → Except ε β} {reason : ε} :
    (result >>= next) = .error reason ↔
      result = .error reason ∨ ∃ first, result = .ok first ∧ next first = .error reason := by
  cases result with
  | error other => exact ⟨fun h => .inl (congrArg _ (Except.error.inj h)),
      fun h => h.elim (fun h => congrArg _ (Except.error.inj h)) fun ⟨_, h, _⟩ => (nomatch h)⟩
  | ok first =>
      exact ⟨fun h => .inr ⟨first, rfl, h⟩,
        fun h => h.elim nofun fun ⟨_, h, hnext⟩ => Except.ok.inj h ▸ hnext⟩

theorem map_eq_ok {result : Except ε α} {change : α → β} {value : β} :
    result.map change = .ok value ↔ ∃ first, result = .ok first ∧ change first = value := by
  cases result with
  | error reason => exact ⟨fun h => (nomatch h), fun ⟨_, h, _⟩ => (nomatch h)⟩
  | ok first =>
      exact ⟨fun h => ⟨first, rfl, Except.ok.inj h⟩,
        fun ⟨_, h, hchange⟩ => by rw [Except.ok.inj h, Except.map, hchange]⟩

theorem mapError_eq_ok {result : Except ε α} {change : ε → ε'} {value : α} :
    result.mapError change = .ok value ↔ result = .ok value := by
  cases result with
  | error reason => exact ⟨fun h => (nomatch h), fun h => (nomatch h)⟩
  | ok first => exact ⟨fun h => congrArg _ (Except.ok.inj h), fun h => congrArg _ (Except.ok.inj h)⟩

theorem toOption_eq_some {result : Except ε α} {value : α} :
    result.toOption = some value ↔ result = .ok value := by
  cases result with
  | error reason => exact ⟨fun h => (nomatch h), fun h => (nomatch h)⟩
  | ok first =>
      exact ⟨fun h => congrArg _ (Option.some.inj h), fun h => congrArg _ (Except.ok.inj h)⟩

-- A list is worked through exactly if each of its elements is, in any monad that tells what its
-- computations yield.
theorem forall₂_of_mapM {m : Type → Type} [Monad m] [LawfulMonad m]
    (yields : {γ : Type} → m γ → γ → Prop)
    (hpure : ∀ {γ : Type} (first value : γ), yields (pure first) value ↔ first = value)
    (hbind : ∀ {γ δ : Type} (work : m γ) (next : γ → m δ) (value : δ),
      yields (work >>= next) value ↔ ∃ first, yields work first ∧ yields (next first) value)
    {work : α → m β} {inputs : List α} {outputs : List β} :
    yields (inputs.mapM work) outputs ↔
      List.Forall₂ (fun input output => yields (work input) output) inputs outputs := by
  induction inputs generalizing outputs with
  | nil =>
      rw [List.mapM_nil, List.forall₂_nil_left_iff, hpure]
      exact eq_comm
  | cons input rest ih =>
      rw [List.mapM_cons, hbind, List.forall₂_cons_left_iff]
      constructor
      · rintro ⟨output, houtput, h⟩
        obtain ⟨others, hothers, h⟩ := (hbind _ _ _).mp h
        exact ⟨output, others, houtput, ih.mp hothers, ((hpure _ _).mp h).symm⟩
      · rintro ⟨output, others, houtput, hothers, rfl⟩
        exact ⟨output, houtput, (hbind _ _ _).mpr ⟨others, ih.mpr hothers, (hpure _ _).mpr rfl⟩⟩

theorem mapM_eq_ok {work : α → Except ε β} {inputs : List α} {outputs : List β} :
    inputs.mapM work = .ok outputs ↔
      List.Forall₂ (fun input output => work input = .ok output) inputs outputs :=
  forall₂_of_mapM (fun result value => result = Except.ok value)
    (fun _ _ => ⟨Except.ok.inj, congrArg Except.ok⟩) (fun _ _ _ => bind_eq_ok)

-- Lists whose elements are related in pairs have a partner for every element.
theorem exists_of_forall₂ {related : α → β → Prop} {inputs : List α} {outputs : List β}
    (h : List.Forall₂ related inputs outputs) :
    (∀ input ∈ inputs, ∃ output ∈ outputs, related input output) ∧
      ∀ output ∈ outputs, ∃ input ∈ inputs, related input output := by
  induction h with
  | nil => simp
  | cons hhead _ ih =>
      constructor
      · intro input hinput
        rcases List.mem_cons.mp hinput with rfl | hinput
        · exact ⟨_, List.mem_cons_self, hhead⟩
        · obtain ⟨output, hmem, houtput⟩ := ih.1 input hinput
          exact ⟨output, List.mem_cons_of_mem _ hmem, houtput⟩
      · intro output houtput
        rcases List.mem_cons.mp houtput with rfl | houtput
        · exact ⟨_, List.mem_cons_self, hhead⟩
        · obtain ⟨input, hmem, hinput⟩ := ih.2 output houtput
          exact ⟨input, List.mem_cons_of_mem _ hmem, hinput⟩

theorem map_eq_map_of_forall₂ {γ : Type} {first : α → γ} {second : β → γ} {inputs : List α}
    {outputs : List β} (h : List.Forall₂ (fun input output => first input = second output) inputs
      outputs) : inputs.map first = outputs.map second := by
  induction h with
  | nil => rfl
  | cons hhead _ ih => rw [List.map_cons, List.map_cons, hhead, ih]

theorem exists_mapM_eq_ok {work : α → Except ε β} {inputs : List α}
    (h : ∀ input ∈ inputs, ∃ output, work input = .ok output) :
    ∃ outputs, inputs.mapM work = .ok outputs := by
  simp only [mapM_eq_ok]
  induction inputs with
  | nil => exact ⟨[], .nil⟩
  | cons input rest ih =>
      obtain ⟨⟨output, houtput⟩, hrest⟩ := List.forall_mem_cons.mp h
      obtain ⟨others, hothers⟩ := ih hrest
      exact ⟨output :: others, .cons houtput hothers⟩

theorem exists_mapM_iff {work : α → Except ε β} {inputs : List α} :
    (∃ outputs, inputs.mapM work = .ok outputs) ↔
      ∀ input ∈ inputs, ∃ output, work input = .ok output := by
  refine ⟨fun ⟨outputs, h⟩ input hinput => ?_, exists_mapM_eq_ok⟩
  obtain ⟨output, _, houtput⟩ := (exists_of_forall₂ (mapM_eq_ok.mp h)).1 input hinput
  exact ⟨output, houtput⟩

theorem exists_of_mapM_eq_error {work : α → Except ε β} {inputs : List α} {reason : ε}
    (h : inputs.mapM work = .error reason) : ∃ input ∈ inputs, work input = .error reason := by
  induction inputs with
  | nil => exact nomatch h
  | cons input rest ih =>
      rw [List.mapM_cons] at h
      rcases bind_eq_error.mp h with hhead | ⟨output, _, h⟩
      · exact ⟨input, List.mem_cons_self, hhead⟩
      · rcases bind_eq_error.mp h with hrest | ⟨_, _, hdone⟩
        · obtain ⟨other, hother, hfails⟩ := ih hrest
          exact ⟨other, List.mem_cons_of_mem _ hother, hfails⟩
        · exact nomatch hdone

theorem mapM_eq_map {work : α → Except ε β} {result : α → β} {inputs : List α}
    (h : ∀ input ∈ inputs, work input = .ok (result input)) :
    inputs.mapM work = .ok (inputs.map result) := by
  rw [mapM_eq_ok, List.forall₂_map_right_iff, List.forall₂_same]
  exact h

-- What one step preserves holds at the end, if no step fails.
theorem of_foldlM_eq_ok {motive : β → Prop} {step : β → α → Except ε β} {inputs : List α}
    {before after : β} (hstep : ∀ input before after, step before input = .ok after →
      motive before → motive after)
    (h : inputs.foldlM step before = .ok after) (hbefore : motive before) : motive after := by
  induction inputs generalizing before with
  | nil =>
      cases h
      exact hbefore
  | cons input rest ih =>
      obtain ⟨next, hnext, h⟩ := bind_eq_ok.mp h
      exact ih h (hstep input before next hnext hbefore)

-- Computations that end with a value or with a failure, if they end.
section Endless

variable {work : ExceptT ε Option α} {next : α → ExceptT ε Option β}

theorem run_bind_eq_ok {value : β} :
    (work >>= next).run = some (.ok value) ↔
      ∃ first, work.run = some (.ok first) ∧ (next first).run = some (.ok value) := by
  rw [ExceptT.run_bind]
  rcases work.run with _ | _ | first
  · exact ⟨nofun, fun ⟨_, h, _⟩ => nomatch h⟩
  · exact ⟨nofun, fun ⟨_, h, _⟩ => nomatch h⟩
  · exact ⟨fun h => ⟨first, rfl, h⟩,
      fun ⟨_, h, hnext⟩ => Except.ok.inj (Option.some.inj h) ▸ hnext⟩

theorem run_bind_eq_none :
    (work >>= next).run = none ↔
      work.run = none ∨ ∃ first, work.run = some (.ok first) ∧ (next first).run = none := by
  rw [ExceptT.run_bind]
  rcases work.run with _ | _ | first
  · exact ⟨fun _ => .inl rfl, fun _ => rfl⟩
  · exact ⟨nofun, fun h => h.elim nofun fun ⟨_, h, _⟩ => nomatch h⟩
  · exact ⟨fun h => .inr ⟨first, rfl, h⟩,
      fun h => h.elim nofun fun ⟨_, h, hnext⟩ => Except.ok.inj (Option.some.inj h) ▸ hnext⟩

theorem run_liftM_bind_eq_ok {result : Except ε α} {value : β} :
    ((liftM result : ExceptT ε Option α) >>= next).run = some (.ok value) ↔
      ∃ first, result = .ok first ∧ (next first).run = some (.ok value) := by
  rw [run_bind_eq_ok]
  refine exists_congr fun first => and_congr_left fun _ => ?_
  exact ⟨Option.some.inj, congrArg some⟩

theorem run_liftM_bind_eq_none {result : Except ε α} :
    ((liftM result : ExceptT ε Option α) >>= next).run = none ↔
      ∃ first, result = .ok first ∧ (next first).run = none := by
  have hends : (liftM result : ExceptT ε Option α).run ≠ none := nofun
  rw [run_bind_eq_none, or_iff_right hends]
  refine exists_congr fun first => and_congr_left fun _ => ?_
  exact ⟨Option.some.inj, congrArg some⟩

theorem run_mapM_eq_ok {work : α → ExceptT ε Option β} {inputs : List α} {outputs : List β} :
    (inputs.mapM work).run = some (.ok outputs) ↔
      List.Forall₂ (fun input output => (work input).run = some (.ok output)) inputs outputs :=
  forall₂_of_mapM (fun work value => ExceptT.run work = some (Except.ok value))
    (fun first value => by
      rw [ExceptT.run_pure]
      exact ⟨fun h => Except.ok.inj (Option.some.inj h), fun h => h ▸ rfl⟩)
    (fun _ _ _ => run_bind_eq_ok)

-- Working through a list does not end exactly if it comes to an element that takes forever.
theorem run_mapM_eq_none {work : α → ExceptT ε Option β} {inputs : List α} :
    (inputs.mapM work).run = none ↔
      ∃ before input after, inputs = before ++ input :: after ∧
        (∀ earlier ∈ before, ∃ output, (work earlier).run = some (.ok output)) ∧
        (work input).run = none := by
  induction inputs with
  | nil => simp
  | cons head rest ih =>
      rw [List.mapM_cons, run_bind_eq_none]
      constructor
      · rintro (hhead | ⟨output, houtput, hrest⟩)
        · exact ⟨[], head, rest, rfl, List.forall_mem_nil _, hhead⟩
        · rcases run_bind_eq_none.mp hrest with hrest | ⟨_, _, hdone⟩
          · obtain ⟨before, input, after, rfl, hbefore, hinput⟩ := ih.mp hrest
            exact ⟨head :: before, input, after, rfl,
              List.forall_mem_cons.mpr ⟨⟨output, houtput⟩, hbefore⟩, hinput⟩
          · exact nomatch hdone
      · rintro ⟨before, input, after, hinputs, hbefore, hinput⟩
        cases before with
        | nil =>
            obtain ⟨rfl, rfl⟩ := List.cons.inj hinputs
            exact .inl hinput
        | cons first before =>
            obtain ⟨rfl, rfl⟩ := List.cons.inj hinputs
            obtain ⟨⟨output, houtput⟩, hbefore⟩ := List.forall_mem_cons.mp hbefore
            have hrest := ih.mpr ⟨before, input, after, rfl, hbefore, hinput⟩
            exact .inr ⟨output, houtput, run_bind_eq_none.mpr (.inl hrest)⟩

end Endless

end SpecRecovery
