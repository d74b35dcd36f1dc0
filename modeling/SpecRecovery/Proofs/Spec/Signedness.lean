import SpecRecovery.Proofs.Spec.Agreement

namespace SpecRecovery.Spec

-- What atoms and which range facts a set of expressions is made of.
structure Vocabulary where
  atom : IntExpr → Prop
  fact : AbiType → IntExpr → Prop

def IntExpr.isPower : IntExpr → Bool
  | .arithmetic .exp _ _ => true
  | _ => false

-- Range facts are about types with a range and about nothing whose value may be too large.
def Vocabulary.Decides (vocabulary : Vocabulary) : Prop :=
  ∀ type value, vocabulary.fact type value →
    type.integerRange.isSome = true ∧ value.isPower = false

-- Signed values stay out of operations that read unsigned words, and no equation is about anything
-- but integers and truths.
mutual

def IntExpr.WellSigned (vocabulary : Vocabulary) : IntExpr → Prop
  | .arithmetic op left right =>
      left.WellSigned vocabulary ∧ right.WellSigned vocabulary ∧
        (op.readsUnsigned = true → left.mentionsSigned = false ∧ right.mentionsSigned = false)
  | .ite condition first second =>
      condition.WellSigned vocabulary ∧ first.WellSigned vocabulary ∧ second.WellSigned vocabulary
  | .lit value => vocabulary.atom (.lit value)
  | .var name type => vocabulary.atom (.var name type)
  | .env value => vocabulary.atom (.env value)
  | .entry timing item => vocabulary.atom (.entry timing item)

def BoolExpr.WellSigned (vocabulary : Vocabulary) : BoolExpr → Prop
  | .lit _ => True
  | .join _ left right => left.WellSigned vocabulary ∧ right.WellSigned vocabulary
  | .neg value => value.WellSigned vocabulary
  | .compare _ left right =>
      left.WellSigned vocabulary ∧ right.WellSigned vocabulary ∧
        left.mentionsSigned = false ∧ right.mentionsSigned = false
  | .eq equation => equation.WellSigned vocabulary
  | .neq equation => equation.WellSigned vocabulary
  | .inRange type value => value.WellSigned vocabulary ∧ vocabulary.fact type value

def Equation.WellSigned (vocabulary : Vocabulary) : Equation → Prop
  | .integer left right =>
      left.WellSigned vocabulary ∧ right.WellSigned vocabulary ∧ left.equatable right = true
  | .boolean left right => left.WellSigned vocabulary ∧ right.WellSigned vocabulary
  | .byteString _ _ => False
  | .contract _ _ => False

end

-- Nothing is said about signs, nor about equations of anything else.
mutual

def IntExpr.BuiltFrom (vocabulary : Vocabulary) : IntExpr → Prop
  | .arithmetic _ left right => left.BuiltFrom vocabulary ∧ right.BuiltFrom vocabulary
  | .ite condition first second =>
      condition.BuiltFrom vocabulary ∧ first.BuiltFrom vocabulary ∧ second.BuiltFrom vocabulary
  | .lit value => vocabulary.atom (.lit value)
  | .var name type => vocabulary.atom (.var name type)
  | .env value => vocabulary.atom (.env value)
  | .entry timing item => vocabulary.atom (.entry timing item)

def BoolExpr.BuiltFrom (vocabulary : Vocabulary) : BoolExpr → Prop
  | .lit _ => True
  | .join _ left right => left.BuiltFrom vocabulary ∧ right.BuiltFrom vocabulary
  | .neg value => value.BuiltFrom vocabulary
  | .compare _ left right => left.BuiltFrom vocabulary ∧ right.BuiltFrom vocabulary
  | .eq equation => equation.BuiltFrom vocabulary
  | .neq equation => equation.BuiltFrom vocabulary
  | .inRange type value => value.BuiltFrom vocabulary ∧ vocabulary.fact type value

def Equation.BuiltFrom (vocabulary : Vocabulary) : Equation → Prop
  | .integer left right => left.BuiltFrom vocabulary ∧ right.BuiltFrom vocabulary
  | .boolean left right => left.BuiltFrom vocabulary ∧ right.BuiltFrom vocabulary
  | .byteString _ _ => True
  | .contract _ _ => True

end

-- Whatever the vocabulary allows, the larger one allows as well.
structure Vocabulary.Within (vocabulary larger : Vocabulary) : Prop where
  atom : ∀ value, vocabulary.atom value → larger.atom value
  fact : ∀ type value, vocabulary.fact type value → larger.fact type value

mutual

theorem IntExpr.builtFrom_of_wellSigned {vocabulary larger : Vocabulary}
    (hwithin : vocabulary.Within larger) : (expr : IntExpr) → expr.WellSigned vocabulary →
    expr.BuiltFrom larger
  | .lit _, h => hwithin.atom _ h
  | .var _ _, h => hwithin.atom _ h
  | .env _, h => hwithin.atom _ h
  | .entry _ _, h => hwithin.atom _ h
  | .arithmetic _ left right, h =>
      ⟨IntExpr.builtFrom_of_wellSigned hwithin left h.1,
        IntExpr.builtFrom_of_wellSigned hwithin right h.2.1⟩
  | .ite condition first second, h =>
      ⟨BoolExpr.builtFrom_of_wellSigned hwithin condition h.1,
        IntExpr.builtFrom_of_wellSigned hwithin first h.2.1,
        IntExpr.builtFrom_of_wellSigned hwithin second h.2.2⟩

theorem BoolExpr.builtFrom_of_wellSigned {vocabulary larger : Vocabulary}
    (hwithin : vocabulary.Within larger) : (expr : BoolExpr) → expr.WellSigned vocabulary →
    expr.BuiltFrom larger
  | .lit _, _ => trivial
  | .join _ left right, h =>
      ⟨BoolExpr.builtFrom_of_wellSigned hwithin left h.1,
        BoolExpr.builtFrom_of_wellSigned hwithin right h.2⟩
  | .neg value, h => BoolExpr.builtFrom_of_wellSigned hwithin value h
  | .compare _ left right, h =>
      ⟨IntExpr.builtFrom_of_wellSigned hwithin left h.1,
        IntExpr.builtFrom_of_wellSigned hwithin right h.2.1⟩
  | .eq equation, h => Equation.builtFrom_of_wellSigned hwithin equation h
  | .neq equation, h => Equation.builtFrom_of_wellSigned hwithin equation h
  | .inRange type value, h =>
      ⟨IntExpr.builtFrom_of_wellSigned hwithin value h.1, hwithin.fact type value h.2⟩

theorem Equation.builtFrom_of_wellSigned {vocabulary larger : Vocabulary}
    (hwithin : vocabulary.Within larger) : (equation : Equation) →
    equation.WellSigned vocabulary → equation.BuiltFrom larger
  | .integer left right, h =>
      ⟨IntExpr.builtFrom_of_wellSigned hwithin left h.1,
        IntExpr.builtFrom_of_wellSigned hwithin right h.2.1⟩
  | .boolean left right, h =>
      ⟨BoolExpr.builtFrom_of_wellSigned hwithin left h.1,
        BoolExpr.builtFrom_of_wellSigned hwithin right h.2⟩
  | .byteString _ _, h => nomatch h
  | .contract _ _, h => nomatch h

end

-- Every integer expression within an expression, apart from the expression itself and from those
-- that a range fact is about.
mutual

def IntExpr.inner : IntExpr → List IntExpr
  | .arithmetic _ left right => left :: left.inner ++ right :: right.inner
  | .ite condition first second =>
      condition.exposed ++ (first :: first.inner ++ second :: second.inner)
  | .lit _ | .var _ _ | .env _ | .entry _ _ => []

def BoolExpr.exposed : BoolExpr → List IntExpr
  | .lit _ => []
  | .join _ left right => left.exposed ++ right.exposed
  | .neg value => value.exposed
  | .compare _ left right => left :: left.inner ++ right :: right.inner
  | .eq equation => equation.exposed
  | .neq equation => equation.exposed
  | .inRange _ value => value.inner

def Equation.exposed : Equation → List IntExpr
  | .integer left right => left :: left.inner ++ right :: right.inner
  | .boolean left right => left.exposed ++ right.exposed
  | .byteString _ _ => []
  | .contract _ _ => []

end

def IntExpr.exposed (expr : IntExpr) : List IntExpr := expr :: expr.inner

-- The two sides of every equation of integers within an expression.
mutual

def IntExpr.equations : IntExpr → List (IntExpr × IntExpr)
  | .arithmetic _ left right => left.equations ++ right.equations
  | .ite condition first second =>
      condition.equations ++ (first.equations ++ second.equations)
  | .lit _ | .var _ _ | .env _ | .entry _ _ => []

def BoolExpr.equations : BoolExpr → List (IntExpr × IntExpr)
  | .lit _ => []
  | .join _ left right => left.equations ++ right.equations
  | .neg value => value.equations
  | .compare _ left right => left.equations ++ right.equations
  | .eq equation => equation.equations
  | .neq equation => equation.equations
  | .inRange _ value => value.equations

def Equation.equations : Equation → List (IntExpr × IntExpr)
  | .integer left right => (left, right) :: (left.equations ++ right.equations)
  | .boolean left right => left.equations ++ right.equations
  | .byteString _ _ => []
  | .contract _ _ => []

end

-- The integer neither wraps nor turns negative unless it comes from signed values, whose integers
-- fit in two's complement.
def IntExpr.InBounds (valuation : Valuation) (expr : IntExpr) : Prop :=
  ∃ value, expr.eval valuation = .ok value ∧
    if expr.mentionsSigned then Word.Signed value else Word.Unsigned value

instance (valuation : Valuation) (expr : IntExpr) : Decidable (expr.InBounds valuation) :=
  match h : expr.eval valuation with
  | .ok value =>
      decidable_of_iff (if expr.mentionsSigned then Word.Signed value else Word.Unsigned value)
        ⟨fun hrange => ⟨value, h, hrange⟩,
          fun ⟨_, hother, hrange⟩ => Except.ok.inj (h.symm.trans hother) ▸ hrange⟩
  | .error _ => isFalse fun ⟨_, hother, _⟩ => nomatch h.symm.trans hother

-- The part of being in bounds that unsigned operations rely on.
def IntExpr.Readable (valuation : Valuation) (expr : IntExpr) : Prop :=
  ∃ value, expr.eval valuation = .ok value ∧
    (expr.mentionsSigned = false → Word.Unsigned value)

-- The sides are not two integers that the machine writes as one word.
def Separate (valuation : Valuation) (left right : IntExpr) : Prop :=
  ∀ first second, left.eval valuation = .ok first → right.eval valuation = .ok second →
    Word.wrap first = Word.wrap second → first = second

variable {vocabulary : Vocabulary} {valuation : Valuation}

theorem IntExpr.Readable.fits {expr : IntExpr} (h : expr.Readable valuation)
    (hsigned : expr.mentionsSigned = false) : expr.FitsUnsigned valuation := by
  obtain ⟨value, heval, hrange⟩ := h
  exact ⟨value, heval, hrange hsigned⟩

theorem IntExpr.InBounds.readable {expr : IntExpr} (h : expr.InBounds valuation) :
    expr.Readable valuation := by
  obtain ⟨value, heval, hrange⟩ := h
  refine ⟨value, heval, fun hsigned => ?_⟩
  rwa [if_neg (by simp [hsigned])] at hrange

-- An expression has a value if its parts do, unless an exponent may be too large.
mutual

theorem IntExpr.exists_eval (hfact : vocabulary.Decides) :
    (expr : IntExpr) → expr.WellSigned vocabulary → expr.isPower = false →
    (∀ part ∈ expr.inner, part.Readable valuation) →
    ∃ value, expr.eval valuation = .ok value
  | .lit _, _, _, _ | .var _ _, _, _, _ | .env _, _, _, _ => ⟨_, rfl⟩
  | .entry timing _, _, _, _ => by cases timing <;> exact ⟨_, rfl⟩
  | .arithmetic op left right, _, hpower, hinner => by
      obtain ⟨first, hl, _⟩ := hinner left (by simp [IntExpr.inner])
      obtain ⟨second, hr, _⟩ := hinner right (by simp [IntExpr.inner])
      have hop : op ≠ .exp := by
        rintro rfl
        exact absurd hpower (by simp [IntExpr.isPower])
      exact ⟨_, IntExpr.eval_arithmetic hop hl hr⟩
  | .ite condition first second, hsigned, _, hinner => by
      obtain ⟨one, hfirst, _⟩ := hinner first (by simp [IntExpr.inner])
      obtain ⟨other, hsecond, _⟩ := hinner second (by simp [IntExpr.inner])
      simp only [IntExpr.inner, List.forall_mem_append] at hinner
      obtain ⟨truth, htruth⟩ := BoolExpr.exists_eval hfact condition hsigned.1 hinner.1
      rw [IntExpr.eval, htruth]
      cases truth with
      | true => exact ⟨one, hfirst⟩
      | false => exact ⟨other, hsecond⟩

theorem BoolExpr.exists_eval (hfact : vocabulary.Decides) :
    (expr : BoolExpr) → expr.WellSigned vocabulary →
    (∀ part ∈ expr.exposed, part.Readable valuation) →
    ∃ truth, expr.eval valuation = .ok truth
  | .lit _, _, _ => ⟨_, rfl⟩
  | .join op left right, hsigned, hexposed => by
      simp only [BoolExpr.exposed, List.forall_mem_append] at hexposed
      obtain ⟨one, hl⟩ := BoolExpr.exists_eval hfact left hsigned.1 hexposed.1
      obtain ⟨other, hr⟩ := BoolExpr.exists_eval hfact right hsigned.2 hexposed.2
      rw [BoolExpr.eval, hl, hr]
      cases hdecided : op.decided? one <;> simp [hdecided, bind, Except.bind, pure, Except.pure]
  | .neg value, hsigned, hexposed => by
      obtain ⟨truth, htruth⟩ := BoolExpr.exists_eval hfact value hsigned hexposed
      rw [BoolExpr.eval, htruth]
      exact ⟨_, rfl⟩
  | .compare op left right, _, hexposed => by
      obtain ⟨first, hl, _⟩ := hexposed left (by simp [BoolExpr.exposed])
      obtain ⟨second, hr, _⟩ := hexposed right (by simp [BoolExpr.exposed])
      rw [BoolExpr.eval, hl, hr]
      exact ⟨_, rfl⟩
  | .eq equation, hsigned, hexposed => Equation.exists_eval hfact equation hsigned hexposed
  | .neq equation, hsigned, hexposed => by
      obtain ⟨truth, htruth⟩ := Equation.exists_eval hfact equation hsigned hexposed
      rw [BoolExpr.eval, htruth]
      exact ⟨_, rfl⟩
  | .inRange type value, hsigned, hexposed => by
      obtain ⟨hrange, hpower⟩ := hfact type value hsigned.2
      obtain ⟨range, hrange⟩ := Option.isSome_iff_exists.mp hrange
      obtain ⟨integer, h⟩ := IntExpr.exists_eval hfact value hsigned.1 hpower hexposed
      rw [BoolExpr.eval, hrange, h]
      exact ⟨_, rfl⟩

theorem Equation.exists_eval (hfact : vocabulary.Decides) :
    (equation : Equation) → equation.WellSigned vocabulary →
    (∀ part ∈ equation.exposed, part.Readable valuation) →
    ∃ truth, equation.eval valuation = .ok truth
  | .integer left right, _, hexposed => by
      obtain ⟨first, hl, _⟩ := hexposed left (by simp [Equation.exposed])
      obtain ⟨second, hr, _⟩ := hexposed right (by simp [Equation.exposed])
      rw [Equation.eval, hl, hr]
      exact ⟨_, rfl⟩
  | .boolean left right, hsigned, hexposed => by
      simp only [Equation.exposed, List.forall_mem_append] at hexposed
      obtain ⟨one, hl⟩ := BoolExpr.exists_eval hfact left hsigned.1 hexposed.1
      obtain ⟨other, hr⟩ := BoolExpr.exists_eval hfact right hsigned.2 hexposed.2
      rw [Equation.eval, hl, hr]
      exact ⟨_, rfl⟩
  | .byteString _ _, hsigned, _ | .contract _ _, hsigned, _ => hsigned.elim

end

-- The signs that are kept apart in the syntax keep the readings apart, as long as the parts have
-- values in bounds and no equation is misled.
mutual

theorem IntExpr.faithful_of_wellSigned (hfact : vocabulary.Decides) :
    (expr : IntExpr) → expr.WellSigned vocabulary →
    (∀ part ∈ expr.inner, part.Readable valuation) →
    (∀ sides ∈ expr.equations, sides.1.equatable sides.2 = true →
      Separate valuation sides.1 sides.2) →
    expr.Faithful valuation
  | .lit _, _, _, _ | .var _ _, _, _, _ | .env _, _, _, _ | .entry _ _, _, _, _ => by
      simp [IntExpr.Faithful]
  | .arithmetic op left right, hsigned, hinner, hequations => by
      obtain ⟨hleft, hright, hunsigned⟩ := hsigned
      simp only [IntExpr.inner, List.forall_mem_append, List.forall_mem_cons] at hinner
      simp only [IntExpr.equations, List.forall_mem_append] at hequations
      obtain ⟨⟨hl, hlinner⟩, hr, hrinner⟩ := hinner
      exact ⟨IntExpr.faithful_of_wellSigned hfact left hleft hlinner hequations.1,
        IntExpr.faithful_of_wellSigned hfact right hright hrinner hequations.2,
        fun hop => ⟨hl.fits (hunsigned hop).1, hr.fits (hunsigned hop).2⟩⟩
  | .ite condition first second, hsigned, hinner, hequations => by
      obtain ⟨hcondition, hfirst, hsecond⟩ := hsigned
      simp only [IntExpr.inner, List.forall_mem_append, List.forall_mem_cons] at hinner
      simp only [IntExpr.equations, List.forall_mem_append] at hequations
      obtain ⟨hcinner, ⟨_, hfinner⟩, _, hsinner⟩ := hinner
      exact ⟨BoolExpr.faithful_of_wellSigned hfact condition hcondition hcinner hequations.1,
        IntExpr.faithful_of_wellSigned hfact first hfirst hfinner hequations.2.1,
        IntExpr.faithful_of_wellSigned hfact second hsecond hsinner hequations.2.2⟩

theorem BoolExpr.faithful_of_wellSigned (hfact : vocabulary.Decides) :
    (expr : BoolExpr) → expr.WellSigned vocabulary →
    (∀ part ∈ expr.exposed, part.Readable valuation) →
    (∀ sides ∈ expr.equations, sides.1.equatable sides.2 = true →
      Separate valuation sides.1 sides.2) →
    expr.Faithful valuation
  | .lit _, _, _, _ => trivial
  | .join op left right, hsigned, hexposed, hequations => by
      simp only [BoolExpr.exposed, List.forall_mem_append] at hexposed
      simp only [BoolExpr.equations, List.forall_mem_append] at hequations
      exact ⟨BoolExpr.faithful_of_wellSigned hfact left hsigned.1 hexposed.1 hequations.1,
        BoolExpr.faithful_of_wellSigned hfact right hsigned.2 hexposed.2 hequations.2⟩
  | .neg value, hsigned, hexposed, hequations =>
      BoolExpr.faithful_of_wellSigned hfact value hsigned hexposed hequations
  | .compare op left right, hsigned, hexposed, hequations => by
      obtain ⟨hleft, hright, hlsign, hrsign⟩ := hsigned
      simp only [BoolExpr.exposed, List.forall_mem_append, List.forall_mem_cons] at hexposed
      simp only [BoolExpr.equations, List.forall_mem_append] at hequations
      obtain ⟨⟨hl, hlinner⟩, hr, hrinner⟩ := hexposed
      exact ⟨IntExpr.faithful_of_wellSigned hfact left hleft hlinner hequations.1,
        IntExpr.faithful_of_wellSigned hfact right hright hrinner hequations.2,
        hl.fits hlsign, hr.fits hrsign⟩
  | .eq equation, hsigned, hexposed, hequations =>
      Equation.faithful_of_wellSigned hfact equation hsigned hexposed hequations
  | .neq equation, hsigned, hexposed, hequations =>
      Equation.faithful_of_wellSigned hfact equation hsigned hexposed hequations
  | .inRange type value, hsigned, hexposed, hequations => by
      obtain ⟨hvalue, hallowed⟩ := hsigned
      obtain ⟨hrange, hpower⟩ := hfact type value hallowed
      have hfaithful := IntExpr.faithful_of_wellSigned hfact value hvalue hexposed hequations
      exact ⟨hfaithful, hrange, value.exists_eval hfact hvalue hpower hexposed⟩

theorem Equation.faithful_of_wellSigned (hfact : vocabulary.Decides) :
    (equation : Equation) → equation.WellSigned vocabulary →
    (∀ part ∈ equation.exposed, part.Readable valuation) →
    (∀ sides ∈ equation.equations, sides.1.equatable sides.2 = true →
      Separate valuation sides.1 sides.2) →
    equation.Faithful valuation
  | .integer left right, hsigned, hexposed, hequations => by
      obtain ⟨hleft, hright, hequatable⟩ := hsigned
      simp only [Equation.exposed, List.forall_mem_append, List.forall_mem_cons] at hexposed
      simp only [Equation.equations, List.forall_mem_append, List.forall_mem_cons] at hequations
      obtain ⟨⟨⟨first, hl, _⟩, hlinner⟩, ⟨second, hr, _⟩, hrinner⟩ := hexposed
      obtain ⟨hseparate, hlequations, hrequations⟩ := hequations
      exact ⟨IntExpr.faithful_of_wellSigned hfact left hleft hlinner hlequations,
        IntExpr.faithful_of_wellSigned hfact right hright hrinner hrequations,
        first, second, hl, hr, hseparate hequatable first second hl hr⟩
  | .boolean left right, hsigned, hexposed, hequations => by
      simp only [Equation.exposed, List.forall_mem_append] at hexposed
      simp only [Equation.equations, List.forall_mem_append] at hequations
      exact ⟨BoolExpr.faithful_of_wellSigned hfact left hsigned.1 hexposed.1 hequations.1,
        BoolExpr.faithful_of_wellSigned hfact right hsigned.2 hexposed.2 hequations.2⟩
  | .byteString _ _, hsigned, _, _ => hsigned.elim
  | .contract _ _, hsigned, _, _ => hsigned.elim

end

mutual

theorem IntExpr.mem_inner_of_mem_equations : (expr : IntExpr) → {sides : IntExpr × IntExpr} →
    sides ∈ expr.equations → sides.1 ∈ expr.inner ∧ sides.2 ∈ expr.inner
  | .lit _, _, h | .var _ _, _, h | .env _, _, h | .entry _ _, _, h => by
      simp [IntExpr.equations] at h
  | .arithmetic _ left right, sides, h => by
      rw [IntExpr.equations, List.mem_append] at h
      rcases h with h | h
      · have hmem := IntExpr.mem_inner_of_mem_equations left h
        simp [IntExpr.inner, hmem]
      · have hmem := IntExpr.mem_inner_of_mem_equations right h
        simp [IntExpr.inner, hmem]
  | .ite condition first second, sides, h => by
      simp only [IntExpr.equations, List.mem_append] at h
      rcases h with h | h | h
      · have hmem := BoolExpr.mem_exposed_of_mem_equations condition h
        simp [IntExpr.inner, hmem]
      · have hmem := IntExpr.mem_inner_of_mem_equations first h
        simp [IntExpr.inner, hmem]
      · have hmem := IntExpr.mem_inner_of_mem_equations second h
        simp [IntExpr.inner, hmem]

theorem BoolExpr.mem_exposed_of_mem_equations : (expr : BoolExpr) →
    {sides : IntExpr × IntExpr} → sides ∈ expr.equations →
    sides.1 ∈ expr.exposed ∧ sides.2 ∈ expr.exposed
  | .lit _, _, h => by simp [BoolExpr.equations] at h
  | .join _ left right, sides, h => by
      rw [BoolExpr.equations, List.mem_append] at h
      rcases h with h | h
      · have hmem := BoolExpr.mem_exposed_of_mem_equations left h
        simp [BoolExpr.exposed, hmem]
      · have hmem := BoolExpr.mem_exposed_of_mem_equations right h
        simp [BoolExpr.exposed, hmem]
  | .neg value, _, h => BoolExpr.mem_exposed_of_mem_equations value h
  | .compare _ left right, sides, h => by
      rw [BoolExpr.equations, List.mem_append] at h
      rcases h with h | h
      · have hmem := IntExpr.mem_inner_of_mem_equations left h
        simp [BoolExpr.exposed, hmem]
      · have hmem := IntExpr.mem_inner_of_mem_equations right h
        simp [BoolExpr.exposed, hmem]
  | .eq equation, _, h => Equation.mem_exposed_of_mem_equations equation h
  | .neq equation, _, h => Equation.mem_exposed_of_mem_equations equation h
  | .inRange _ value, _, h => IntExpr.mem_inner_of_mem_equations value h

theorem Equation.mem_exposed_of_mem_equations : (equation : Equation) →
    {sides : IntExpr × IntExpr} → sides ∈ equation.equations →
    sides.1 ∈ equation.exposed ∧ sides.2 ∈ equation.exposed
  | .integer left right, sides, h => by
      simp only [Equation.equations, List.mem_cons, List.mem_append] at h
      rcases h with rfl | h | h
      · simp [Equation.exposed]
      · have hmem := IntExpr.mem_inner_of_mem_equations left h
        simp [Equation.exposed, hmem]
      · have hmem := IntExpr.mem_inner_of_mem_equations right h
        simp [Equation.exposed, hmem]
  | .boolean left right, sides, h => by
      rw [Equation.equations, List.mem_append] at h
      rcases h with h | h
      · have hmem := BoolExpr.mem_exposed_of_mem_equations left h
        simp [Equation.exposed, hmem]
      · have hmem := BoolExpr.mem_exposed_of_mem_equations right h
        simp [Equation.exposed, hmem]
  | .byteString _ _, _, h => by simp [Equation.equations] at h
  | .contract _ _, _, h => by simp [Equation.equations] at h

end

mutual

theorem IntExpr.wellSigned_of_mem_equations : (expr : IntExpr) → {sides : IntExpr × IntExpr} →
    expr.WellSigned vocabulary → sides ∈ expr.equations →
    (Equation.integer sides.1 sides.2).WellSigned vocabulary
  | .lit _, _, _, h | .var _ _, _, _, h | .env _, _, _, h | .entry _ _, _, _, h => nomatch h
  | .arithmetic _ left right, sides, hsigned, h => by
      rcases List.mem_append.mp h with h | h
      · exact IntExpr.wellSigned_of_mem_equations left hsigned.1 h
      · exact IntExpr.wellSigned_of_mem_equations right hsigned.2.1 h
  | .ite condition first second, sides, hsigned, h => by
      rcases List.mem_append.mp h with h | h
      · exact BoolExpr.wellSigned_of_mem_equations condition hsigned.1 h
      · rcases List.mem_append.mp h with h | h
        · exact IntExpr.wellSigned_of_mem_equations first hsigned.2.1 h
        · exact IntExpr.wellSigned_of_mem_equations second hsigned.2.2 h

theorem BoolExpr.wellSigned_of_mem_equations : (expr : BoolExpr) → {sides : IntExpr × IntExpr} →
    expr.WellSigned vocabulary → sides ∈ expr.equations →
    (Equation.integer sides.1 sides.2).WellSigned vocabulary
  | .lit _, _, _, h => nomatch h
  | .join _ left right, sides, hsigned, h => by
      rcases List.mem_append.mp h with h | h
      · exact BoolExpr.wellSigned_of_mem_equations left hsigned.1 h
      · exact BoolExpr.wellSigned_of_mem_equations right hsigned.2 h
  | .neg value, _, hsigned, h => BoolExpr.wellSigned_of_mem_equations value hsigned h
  | .compare _ left right, sides, hsigned, h => by
      rcases List.mem_append.mp h with h | h
      · exact IntExpr.wellSigned_of_mem_equations left hsigned.1 h
      · exact IntExpr.wellSigned_of_mem_equations right hsigned.2.1 h
  | .eq equation, _, hsigned, h => Equation.wellSigned_of_mem_equations equation hsigned h
  | .neq equation, _, hsigned, h => Equation.wellSigned_of_mem_equations equation hsigned h
  | .inRange _ value, _, hsigned, h => IntExpr.wellSigned_of_mem_equations value hsigned.1 h

theorem Equation.wellSigned_of_mem_equations : (equation : Equation) →
    {sides : IntExpr × IntExpr} → equation.WellSigned vocabulary → sides ∈ equation.equations →
    (Equation.integer sides.1 sides.2).WellSigned vocabulary
  | .integer left right, sides, hsigned, h => by
      rcases List.mem_cons.mp h with rfl | h
      · exact hsigned
      · rcases List.mem_append.mp h with h | h
        · exact IntExpr.wellSigned_of_mem_equations left hsigned.1 h
        · exact IntExpr.wellSigned_of_mem_equations right hsigned.2.1 h
  | .boolean left right, sides, hsigned, h => by
      rcases List.mem_append.mp h with h | h
      · exact BoolExpr.wellSigned_of_mem_equations left hsigned.1 h
      · exact BoolExpr.wellSigned_of_mem_equations right hsigned.2 h
  | .byteString _ _, _, hsigned, _ | .contract _ _, _, hsigned, _ => hsigned.elim

end

-- A signed value that a literal is compared with could be that literal.
theorem IntExpr.InBounds.signed {expr : IntExpr} {value : Int} (h : expr.InBounds valuation)
    (hcompares : expr.comparesWithSigned = true) (heval : expr.eval valuation = .ok value) :
    Word.Signed value := by
  obtain ⟨other, hother, hrange⟩ := h
  obtain rfl : other = value := Except.ok.inj (hother.symm.trans heval)
  by_cases hsigned : expr.mentionsSigned = true
  · rwa [if_pos hsigned] at hrange
  · rw [if_neg hsigned] at hrange
    simp only [comparesWithSigned, hsigned, Bool.false_or] at hcompares
    split at hcompares
    · next literal =>
        obtain rfl := Except.ok.inj heval
        rw [decide_eq_true_iff] at hcompares
        exact ⟨(Int.neg_nonpos_of_nonneg (Int.natCast_nonneg _)).trans hrange.1, hcompares⟩
    · exact absurd hcompares (by simp)

-- Once one side is signed, both are or could be.
theorem comparesWithSigned_of_equatable {left right : IntExpr}
    (h : left.equatable right = true)
    (hsigned : left.mentionsSigned = true ∨ right.mentionsSigned = true) :
    left.comparesWithSigned = true ∧ right.comparesWithSigned = true := by
  simp only [IntExpr.equatable, Bool.and_eq_true, Bool.or_eq_true, Bool.not_eq_true'] at h
  rcases hsigned with hsigned | hsigned <;>
    simp_all [IntExpr.comparesWithSigned]

theorem separate_of_inBounds {left right : IntExpr} (hl : left.InBounds valuation)
    (hr : right.InBounds valuation) (hequatable : left.equatable right = true) :
    Separate valuation left right := by
  intro first second hfirst hsecond hsame
  by_cases hsigned : left.mentionsSigned = true ∨ right.mentionsSigned = true
  · have hcompare := comparesWithSigned_of_equatable hequatable hsigned
    exact Word.wrap_injective_signed (hl.signed hcompare.1 hfirst) (hr.signed hcompare.2 hsecond)
      hsame
  · simp only [not_or, Bool.not_eq_true] at hsigned
    exact Word.wrap_injective_unsigned ((hl.readable.fits hsigned.1).of_eval hfirst)
      ((hr.readable.fits hsigned.2).of_eval hsecond) hsame

theorem IntExpr.faithful_of_inBounds (hfact : vocabulary.Decides)
    (expr : IntExpr) (hsigned : expr.WellSigned vocabulary)
    (hinner : ∀ part ∈ expr.inner, part.InBounds valuation) : expr.Faithful valuation :=
  expr.faithful_of_wellSigned hfact hsigned (fun part hpart => (hinner part hpart).readable)
    fun _ hsides hequatable =>
      have hmem := expr.mem_inner_of_mem_equations hsides
      separate_of_inBounds (hinner _ hmem.1) (hinner _ hmem.2) hequatable

theorem BoolExpr.faithful_of_inBounds (hfact : vocabulary.Decides)
    (expr : BoolExpr) (hsigned : expr.WellSigned vocabulary)
    (hexposed : ∀ part ∈ expr.exposed, part.InBounds valuation) : expr.Faithful valuation :=
  expr.faithful_of_wellSigned hfact hsigned (fun part hpart => (hexposed part hpart).readable)
    fun _ hsides hequatable =>
      have hmem := expr.mem_exposed_of_mem_equations hsides
      separate_of_inBounds (hexposed _ hmem.1) (hexposed _ hmem.2) hequatable

end SpecRecovery.Spec
