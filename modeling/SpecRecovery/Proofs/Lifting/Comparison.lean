import SpecRecovery.Proofs.Lifting.Meaning

namespace SpecRecovery

namespace Machine

-- Nothing in the word can leave the range of words: it is made of atoms, comparisons, conditionals,
-- quotients and remainders.
def Expr.neverWraps : Expr → Bool
  | .lit _ | .var _ | .env _ => true
  | .binary (.arithmetic op) left right =>
      (op == .div || op == .mod) && left.neverWraps && right.neverWraps
  | .binary (.compare _) left right => left.neverWraps && right.neverWraps
  | .binary .eq left right => left.neverWraps && right.neverWraps
  | .isZero number => number.neverWraps
  | .ite condition first second =>
      condition.neverWraps && first.neverWraps && second.neverWraps
  | .sload (.lit _) .abstract => true
  | _ => false

def Cond.neverWraps : Cond → Bool
  | .bool _ => true
  | .eq (.word left) (.word right) => left.neverWraps && right.neverWraps
  | .eq _ _ => false
  | .compare _ left right => left.neverWraps && right.neverWraps
  | .neg inner => inner.neverWraps
  | .join _ left right => left.neverWraps && right.neverWraps

end Machine

namespace Spec

-- The value of a word under one of its two readings.
def IntExpr.Spanned (valuation : Valuation) (expr : IntExpr) : Prop :=
  ∃ value, expr.eval valuation = .ok value ∧
    (Word.Unsigned value ∨ expr.mentionsSigned = true ∧ Word.Signed value)

-- All values that the expression can take are those of signed atoms, or literals among these.
def IntExpr.allSigned : IntExpr → Bool
  | .lit value => value < twoTo (Word.sizeBits - 1)
  | .var _ type => type.isSigned
  | .entry _ item => item.type.isSigned
  | .ite _ first second => first.allSigned && second.allSigned
  | .env _ | .arithmetic _ _ _ => false

-- No conditional chooses between a signed value and one that signed values cannot take.
def IntExpr.uniform (expr : IntExpr) : Bool := !expr.mentionsSigned || expr.allSigned

-- Two different integers that the machine writes as one word, because one is the unsigned reading
-- and the other one the signed reading of it.
def Apart (valuation : Valuation) (left right : IntExpr) : Prop :=
  ∃ first second, left.eval valuation = .ok first ∧ right.eval valuation = .ok second ∧
    (first = second + twoTo Word.sizeBits ∨ second = first + twoTo Word.sizeBits)

instance (valuation : Valuation) (left right : IntExpr) : Decidable (Apart valuation left right) :=
  match hl : left.eval valuation, hr : right.eval valuation with
  | .ok first, .ok second =>
      decidable_of_iff
        (first = second + twoTo Word.sizeBits ∨ second = first + twoTo Word.sizeBits)
        ⟨fun h => ⟨first, second, hl, hr, h⟩, fun ⟨_, _, hone, hother, h⟩ =>
          Except.ok.inj (hl.symm.trans hone) ▸ Except.ok.inj (hr.symm.trans hother) ▸ h⟩
  | .error _, _ => isFalse fun ⟨_, _, hone, _⟩ => nomatch hl.symm.trans hone
  | .ok _, .error _ => isFalse fun ⟨_, _, _, hother, _⟩ => nomatch hr.symm.trans hother

variable {valuation : Valuation} {expr : IntExpr}

theorem IntExpr.Spanned.readable (h : expr.Spanned valuation) : expr.Readable valuation := by
  obtain ⟨value, heval, hrange⟩ := h
  refine ⟨value, heval, fun hsigned => hrange.resolve_right ?_⟩
  rw [hsigned]
  exact fun hmentions => nomatch hmentions.1

theorem IntExpr.Spanned.bounds {value : Int} (h : expr.Spanned valuation)
    (heval : expr.eval valuation = .ok value) : -2 ^ 255 ≤ value ∧ value < 2 ^ 256 := by
  obtain ⟨other, hother, hrange⟩ := h
  obtain rfl := Except.ok.inj (heval.symm.trans hother)
  rw [Word.signed_iff, Word.unsigned_iff] at hrange
  omega

-- Readings of one word are equal or differ by the number of words.
theorem separate_of_not_apart {left right : IntExpr} (hl : left.Spanned valuation)
    (hr : right.Spanned valuation) (h : ¬Apart valuation left right) :
    Separate valuation left right := by
  intro first second hfirst hsecond hsame
  have hfirstBounds := hl.bounds hfirst
  have hsecondBounds := hr.bounds hsecond
  rw [Word.wrap_eq_wrap_iff] at hsame
  by_contra hdiff
  refine h ⟨first, second, hfirst, hsecond, ?_⟩
  have hwords : (twoTo Word.sizeBits : Int) = 2 ^ 256 := rfl
  omega

theorem wrap_eq_of_apart {left right : IntExpr} {first second : Int}
    (h : Apart valuation left right) (hfirst : left.eval valuation = .ok first)
    (hsecond : right.eval valuation = .ok second) :
    Word.wrap first = Word.wrap second ∧ first ≠ second := by
  obtain ⟨one, other, hone, hother, hdiff⟩ := h
  obtain rfl := Except.ok.inj (hone.symm.trans hfirst)
  obtain rfl := Except.ok.inj (hother.symm.trans hsecond)
  have hwords : (twoTo Word.sizeBits : Int) = 2 ^ 256 := rfl
  rw [Word.wrap_eq_wrap_iff]
  omega

theorem allSigned_of_uniform {expr : IntExpr} (huniform : expr.uniform = true)
    (hcompares : expr.comparesWithSigned = true) : expr.allSigned = true := by
  rw [IntExpr.uniform, Bool.or_eq_true, Bool.not_eq_true'] at huniform
  rcases huniform with hunsigned | hall
  · unfold IntExpr.comparesWithSigned at hcompares
    rw [hunsigned, Bool.false_or] at hcompares
    cases expr <;> first | exact hcompares | exact nomatch hcompares
  · exact hall

theorem allSigned_of_equatable {left right : IntExpr} (h : left.equatable right = true)
    (huniform : left.uniform = true ∧ right.uniform = true)
    (hsigned : left.mentionsSigned = true ∨ right.mentionsSigned = true) :
    left.allSigned = true ∧ right.allSigned = true := by
  have hcompares := comparesWithSigned_of_equatable h hsigned
  exact ⟨allSigned_of_uniform huniform.1 hcompares.1, allSigned_of_uniform huniform.2 hcompares.2⟩

theorem spanned_interpret (word : Word) (type : AbiType) :
    Word.Unsigned (interpret word type) ∨
      type.isSigned = true ∧ Word.Signed (interpret word type) := by
  cases hsigned : type.isSigned with
  | true => exact .inr ⟨rfl, interpret_signed word hsigned ▸ Word.signed_toInt word⟩
  | false => exact .inl (interpret_unsigned word hsigned ▸ Word.unsigned_toInteger word)

end Spec

namespace Lifter

open Machine Spec

variable {lifter : Lifter} {assignment : Assignment} {term : Machine.Expr} {expr : IntExpr}

-- All integers that an expression exposes are values of words.
def AllSpanned (lifter : Lifter) (assignment : Assignment) (exprs : List IntExpr) : Prop :=
  ∀ part ∈ exprs, part.Spanned (.ofStorage assignment lifter.resolver)

theorem allSpanned_append {first second : List IntExpr} :
    AllSpanned lifter assignment (first ++ second) ↔
      AllSpanned lifter assignment first ∧ AllSpanned lifter assignment second :=
  List.forall_mem_append

theorem allSpanned_cons {first : IntExpr} {rest : List IntExpr} :
    AllSpanned lifter assignment (first :: rest) ↔
      first.Spanned (.ofStorage assignment lifter.resolver) ∧
        AllSpanned lifter assignment rest := List.forall_mem_cons

theorem allSpanned_lit {value : Int} (h : Word.Unsigned value) :
    AllSpanned lifter assignment (IntExpr.lit value).exposed :=
  allSpanned_cons.mpr ⟨⟨value, rfl, .inl h⟩, fun _ hmem => nomatch hmem⟩

theorem allSpanned_var (name : String) (type : AbiType) :
    AllSpanned lifter assignment (IntExpr.var name type).exposed :=
  allSpanned_cons.mpr ⟨⟨_, rfl, spanned_interpret _ type⟩, fun _ hmem => nomatch hmem⟩

theorem allSpanned_env (value : Environment) :
    AllSpanned lifter assignment (IntExpr.env value).exposed :=
  allSpanned_cons.mpr ⟨⟨_, rfl, .inl (Word.unsigned_toInteger _)⟩, fun _ hmem => nomatch hmem⟩

theorem allSpanned_read {slot : Word} {item : StorageItem}
    (h : lifter.resolver.resolve slot = .ok item) :
    AllSpanned lifter assignment (IntExpr.pre item).exposed := by
  refine allSpanned_cons.mpr ⟨⟨_, rfl, ?_⟩, fun _ hmem => nomatch hmem⟩
  rw [preValue_ofStorage assignment h]
  exact spanned_interpret _ item.type

-- The operands of an idiom are atoms, wherever the idiom was found.
theorem allSpanned_of_isUnsigned (h : Lifts lifter term expr) (hunsigned : isUnsigned expr = true) :
    AllSpanned lifter assignment expr.exposed := by
  cases h with
  | lit value => exact allSpanned_lit (Word.unsigned_toInteger value)
  | var => exact allSpanned_var _ _
  | env value => exact allSpanned_env value
  | read h => exact allSpanned_read h
  | _ => exact nomatch hunsigned

-- The value is that of one of the cases.
theorem allSpanned_ite {condition : BoolExpr} {one other : IntExpr}
    (hsigned : condition.WellSigned (emitted lifter.resolver))
    (hcondition : AllSpanned lifter assignment condition.exposed)
    (hone : AllSpanned lifter assignment one.exposed)
    (hother : AllSpanned lifter assignment other.exposed) :
    AllSpanned lifter assignment (IntExpr.ite condition one other).exposed := by
  have hinner : AllSpanned lifter assignment (IntExpr.ite condition one other).inner :=
    allSpanned_append.mpr ⟨hcondition, allSpanned_append.mpr ⟨hone, hother⟩⟩
  refine allSpanned_cons.mpr ⟨?_, hinner⟩
  obtain ⟨truth, htruth⟩ := condition.exists_eval (emitted_decides lifter.resolver) hsigned
    fun part hpart => (hcondition part hpart).readable
  obtain ⟨⟨first, hfirst, hfirstRange⟩, _⟩ := allSpanned_cons.mp hone
  obtain ⟨⟨second, hsecond, hsecondRange⟩, _⟩ := allSpanned_cons.mp hother
  cases truth with
  | true =>
      refine ⟨first, by rw [IntExpr.eval, htruth]; exact hfirst, ?_⟩
      exact hfirstRange.imp_right fun h => ⟨by simp [IntExpr.mentionsSigned, h.1], h.2⟩
  | false =>
      refine ⟨second, by rw [IntExpr.eval, htruth]; exact hsecond, ?_⟩
      exact hsecondRange.imp_right fun h => ⟨by simp [IntExpr.mentionsSigned, h.1], h.2⟩

theorem allSpanned_ofBool {condition : BoolExpr}
    (hsigned : condition.WellSigned (emitted lifter.resolver))
    (hcondition : AllSpanned lifter assignment condition.exposed) :
    AllSpanned lifter assignment (IntExpr.ofBool condition).exposed :=
  allSpanned_ite hsigned hcondition (allSpanned_lit unsigned_one) (allSpanned_lit unsigned_zero)

theorem allSpanned_truthOf (h : AllSpanned lifter assignment expr.exposed) :
    AllSpanned lifter assignment (truthOf expr).exposed := by
  unfold truthOf
  cases htruth : expr.truth? with
  | none => exact allSpanned_append.mpr ⟨h, allSpanned_lit unsigned_zero⟩
  | some condition =>
      rw [IntExpr.truth?_eq_some_iff.mp htruth] at h
      exact (allSpanned_append.mp (allSpanned_cons.mp h).2).1

-- A range fact exposes the operands only.
theorem allSpanned_conclusion (idiom : Idiom) {first second : IntExpr}
    (hfirst : AllSpanned lifter assignment first.exposed)
    (hsecond : AllSpanned lifter assignment second.exposed) :
    AllSpanned lifter assignment (idiom.conclusion first second).exposed := by
  cases idiom with
  | additionOverflow => exact allSpanned_append.mpr ⟨hfirst, hsecond⟩
  | multiplicationOverflow =>
      exact allSpanned_append.mpr
        ⟨allSpanned_append.mpr ⟨hfirst, allSpanned_lit unsigned_zero⟩,
          allSpanned_append.mpr ⟨hfirst, hsecond⟩⟩

theorem allSpanned_of_lifts (h : Lifts lifter term expr) (hterm : term.neverWraps = true) :
    AllSpanned lifter assignment expr.exposed := by
  induction h with
  | idiom _ hleft hfirst hright hsecond =>
      exact allSpanned_ofBool
        (wellSigned_conclusion (allows_emitted lifter) _ (wellSigned_of_lifts hleft) hfirst
          (wellSigned_of_lifts hright) hsecond)
        (allSpanned_conclusion _ (allSpanned_of_isUnsigned hleft hfirst)
          (allSpanned_of_isUnsigned hright hsecond))
  | lit value => exact allSpanned_lit (Word.unsigned_toInteger value)
  | var _ => exact allSpanned_var _ _
  | env value => exact allSpanned_env value
  | @arithmetic op left right first second hleft hright hsigned ihl ihr =>
      simp only [Machine.Expr.neverWraps, Bool.and_eq_true, Bool.or_eq_true, beq_iff_eq] at hterm
      obtain ⟨⟨hop, hl⟩, hr⟩ := hterm
      have hfirst := allSpanned_cons.mp (ihl hl)
      have hsecond := allSpanned_cons.mp (ihr hr)
      have hreads : op.readsUnsigned = true := by rcases hop with rfl | rfl <;> rfl
      obtain ⟨one, hone, honeRange⟩ := hfirst.1.readable.fits (hsigned hreads).1
      obtain ⟨other, hother, hotherRange⟩ := hsecond.1.readable.fits (hsigned hreads).2
      refine allSpanned_cons.mpr ⟨⟨_, IntExpr.eval_arithmetic ?_ hone hother, ?_⟩,
        allSpanned_append.mpr ⟨ihl hl, ihr hr⟩⟩
      · rcases hop with rfl | rfl <;> decide
      · exact .inl (Arithmetic.unsigned_onIntegers hop honeRange hotherRange)
  | compare hleft hright hsigned ihl ihr =>
      rw [Machine.Expr.neverWraps, Bool.and_eq_true] at hterm
      exact allSpanned_ofBool ⟨wellSigned_of_lifts hleft, wellSigned_of_lifts hright, hsigned⟩
        (allSpanned_append.mpr ⟨ihl hterm.1, ihr hterm.2⟩)
  | eq hleft hright hequatable ihl ihr =>
      rw [Machine.Expr.neverWraps, Bool.and_eq_true] at hterm
      exact allSpanned_ofBool ⟨wellSigned_of_lifts hleft, wellSigned_of_lifts hright, hequatable⟩
        (allSpanned_append.mpr ⟨ihl hterm.1, ihr hterm.2⟩)
  | isZero h ih =>
      rw [Machine.Expr.neverWraps] at hterm
      exact allSpanned_ofBool (wellSigned_zero (allows_emitted lifter) (wellSigned_of_lifts h))
        (allSpanned_append.mpr ⟨ih hterm, allSpanned_lit unsigned_zero⟩)
  | ite hcondition _ _ ihc ihf ihs =>
      simp only [Machine.Expr.neverWraps, Bool.and_eq_true] at hterm
      have hsigned := wellSigned_truthOf (allows_emitted lifter) (wellSigned_of_lifts hcondition)
      exact allSpanned_ite hsigned (allSpanned_truthOf (ihc hterm.1.1)) (ihf hterm.1.2)
        (ihs hterm.2)
  | read h => exact allSpanned_read h

theorem allSpanned_of_condLifts {cond : Cond} {prop : BoolExpr} (h : CondLifts lifter cond prop)
    (hcond : cond.neverWraps = true) : AllSpanned lifter assignment prop.exposed := by
  induction h with
  | idiom _ hleft hfirst hright hsecond =>
      exact allSpanned_conclusion _ (allSpanned_of_isUnsigned hleft hfirst)
        (allSpanned_of_isUnsigned hright hsecond)
  | bool _ => exact fun _ hmem => nomatch hmem
  | eq hleft hright _ =>
      rw [Cond.neverWraps, Bool.and_eq_true] at hcond
      exact allSpanned_append.mpr
        ⟨allSpanned_of_lifts hleft hcond.1, allSpanned_of_lifts hright hcond.2⟩
  | compare hleft hright _ =>
      rw [Cond.neverWraps, Bool.and_eq_true] at hcond
      exact allSpanned_append.mpr
        ⟨allSpanned_of_lifts hleft hcond.1, allSpanned_of_lifts hright hcond.2⟩
  | neg _ ih => exact ih hcond
  | join _ _ ihl ihr =>
      rw [Cond.neverWraps, Bool.and_eq_true] at hcond
      exact allSpanned_append.mpr ⟨ihl hcond.1, ihr hcond.2⟩

-- Where the sides of no equation are apart, every side is read as it is meant.
theorem separate_of_allSpanned {equations : List (IntExpr × IntExpr)} {exposed : List IntExpr}
    (hspanned : AllSpanned lifter assignment exposed)
    (hmem : ∀ sides ∈ equations, sides.1 ∈ exposed ∧ sides.2 ∈ exposed)
    (happart : ∀ sides ∈ equations,
      ¬Apart (.ofStorage assignment lifter.resolver) sides.1 sides.2) :
    ∀ sides ∈ equations, sides.1.equatable sides.2 = true →
      Separate (.ofStorage assignment lifter.resolver) sides.1 sides.2 :=
  fun sides hsides _ =>
    separate_of_not_apart (hspanned _ (hmem sides hsides).1) (hspanned _ (hmem sides hsides).2)
      (happart sides hsides)

theorem faithful_of_not_apart {prop : BoolExpr}
    (hsigned : prop.WellSigned (emitted lifter.resolver))
    (hspanned : AllSpanned lifter assignment prop.exposed)
    (happart : ∀ sides ∈ prop.equations,
      ¬Apart (.ofStorage assignment lifter.resolver) sides.1 sides.2) :
    prop.Faithful (.ofStorage assignment lifter.resolver) :=
  prop.faithful_of_wellSigned (emitted_decides lifter.resolver) hsigned
    (fun part hpart => (hspanned part hpart).readable)
    (separate_of_allSpanned hspanned (fun _ => prop.mem_exposed_of_mem_equations) happart)

theorem side_faithful_of_not_apart (hsigned : expr.WellSigned (emitted lifter.resolver))
    (hspanned : AllSpanned lifter assignment expr.inner)
    (happart : ∀ sides ∈ expr.equations,
      ¬Apart (.ofStorage assignment lifter.resolver) sides.1 sides.2) :
    expr.Faithful (.ofStorage assignment lifter.resolver) :=
  expr.faithful_of_wellSigned (emitted_decides lifter.resolver) hsigned
    (fun part hpart => (hspanned part hpart).readable)
    (separate_of_allSpanned hspanned (fun _ => expr.mem_inner_of_mem_equations) happart)

theorem signed_of_allSigned : (expr : IntExpr) → expr.allSigned = true →
    expr.WellSigned (emitted lifter.resolver) → {value : Int} →
    expr.eval (.ofStorage assignment lifter.resolver) = .ok value → Word.Signed value
  | .lit literal, hall, hsigned, value, heval => by
      obtain rfl := Except.ok.inj heval
      have hlow : 0 ≤ literal := hsigned.1
      rw [IntExpr.allSigned, decide_eq_true_iff] at hall
      exact ⟨(Int.neg_nonpos_of_nonneg (Int.natCast_nonneg _)).trans hlow, hall⟩
  | .var name type, hall, _, value, heval => by
      obtain rfl := Except.ok.inj heval
      rw [interpret_signed _ hall]
      exact Word.signed_toInt _
  | .entry timing item, hall, hsigned, value, heval => by
      obtain ⟨rfl, hlists⟩ := hsigned
      obtain ⟨slot, hslot⟩ := Resolver.lists_iff.mp hlists
      obtain rfl := Except.ok.inj heval
      rw [preValue_ofStorage assignment hslot, interpret_signed _ hall]
      exact Word.signed_toInt _
  | .ite condition first second, hall, hsigned, value, heval => by
      rw [IntExpr.allSigned, Bool.and_eq_true] at hall
      obtain ⟨truth, _, hcase⟩ := bind_eq_ok.mp heval
      cases truth with
      | true => exact signed_of_allSigned first hall.1 hsigned.2.1 hcase
      | false => exact signed_of_allSigned second hall.2 hsigned.2.2 hcase

-- Equations of uniform sides are never misread.
theorem not_apart_of_uniform {left right : IntExpr}
    (hsigned : (Equation.integer left right).WellSigned (emitted lifter.resolver))
    (hl : left.Spanned (.ofStorage assignment lifter.resolver))
    (hr : right.Spanned (.ofStorage assignment lifter.resolver))
    (huniform : left.uniform = true ∧ right.uniform = true) :
    ¬Apart (.ofStorage assignment lifter.resolver) left right := by
  obtain ⟨hleft, hright, hequatable⟩ := hsigned
  rintro ⟨first, second, hfirst, hsecond, hdiff⟩
  have hwords : (twoTo Word.sizeBits : Int) = 2 ^ 256 := rfl
  by_cases hmentions : left.mentionsSigned = true ∨ right.mentionsSigned = true
  · have hall := allSigned_of_equatable hequatable huniform hmentions
    have hone := signed_of_allSigned left hall.1 hleft hfirst
    have hother := signed_of_allSigned right hall.2 hright hsecond
    rw [Word.signed_iff] at hone hother
    omega
  · simp only [not_or, Bool.not_eq_true] at hmentions
    have hone := (hl.readable.fits hmentions.1).of_eval hfirst
    have hother := (hr.readable.fits hmentions.2).of_eval hsecond
    rw [Word.unsigned_iff] at hone hother
    omega

-- No equation of a lifted proposition mixes the readings unless a conditional in it does.
theorem not_apart_of_mem_equations {prop : BoolExpr}
    (hsigned : prop.WellSigned (emitted lifter.resolver))
    (hspanned : AllSpanned lifter assignment prop.exposed)
    (huniform : ∀ sides ∈ prop.equations, sides.1.uniform = true ∧ sides.2.uniform = true) :
    ∀ sides ∈ prop.equations,
      ¬Apart (.ofStorage assignment lifter.resolver) sides.1 sides.2 := by
  intro sides hsides
  have hmem := prop.mem_exposed_of_mem_equations hsides
  exact not_apart_of_uniform (prop.wellSigned_of_mem_equations hsigned hsides)
    (hspanned _ hmem.1) (hspanned _ hmem.2) (huniform sides hsides)

-- A proposition without arithmetic that wraps is misread only where the two sides of an equation
-- in it are different readings of one word, and an equation with such sides is misread. Only
-- conditionals that mix the readings can lead to this.
theorem agrees_unless_apart (lifter : Lifter) (assignment : Assignment) {cond : Cond}
    {prop : BoolExpr} (hcond : cond.neverWraps = true) (hlift : lifter.cond cond = .ok prop) :
    ∃ machine truth, cond.holds assignment = .ok machine ∧
      prop.eval (.ofStorage assignment lifter.resolver) = .ok truth ∧
      ((∀ sides ∈ prop.equations,
        ¬Apart (.ofStorage assignment lifter.resolver) sides.1 sides.2) → machine = truth) ∧
      ((∀ sides ∈ prop.equations, sides.1.uniform = true ∧ sides.2.uniform = true) →
        machine = truth) ∧
      (∀ left right, prop = .intEq left right →
        (∀ sides ∈ left.equations ++ right.equations,
          ¬Apart (.ofStorage assignment lifter.resolver) sides.1 sides.2) →
        (machine = truth ↔ ¬Apart (.ofStorage assignment lifter.resolver) left right)) := by
  have hlifts := condLifts_of_cond hlift
  have hsigned := wellSigned_of_condLifts hlifts
  have hspanned : AllSpanned lifter assignment prop.exposed := allSpanned_of_condLifts hlifts hcond
  obtain ⟨truth, htruth⟩ := prop.exists_eval (emitted_decides lifter.resolver) hsigned
    fun part hpart => (hspanned part hpart).readable
  have hagree (happart : ∀ sides ∈ prop.equations,
      ¬Apart (.ofStorage assignment lifter.resolver) sides.1 sides.2) :
      prop.truth (.ofStorage assignment lifter.resolver) = truth := by
    have heval := prop.eval_of_faithful (faithful_of_not_apart hsigned hspanned happart)
    exact Except.ok.inj (heval.symm.trans htruth)
  refine ⟨_, truth, holds_of_condLifts assignment hlifts, htruth, hagree,
    fun huniform => hagree (not_apart_of_mem_equations hsigned hspanned huniform), ?_⟩
  rintro left right rfl hsides
  constructor
  · intro hsame happart
    obtain ⟨hleft, hright, _⟩ := hsigned
    have hparts := allSpanned_append.mp hspanned
    obtain ⟨⟨first, hfirst, _⟩, hlinner⟩ := allSpanned_cons.mp hparts.1
    obtain ⟨⟨second, hsecond, _⟩, hrinner⟩ := allSpanned_cons.mp hparts.2
    rw [List.forall_mem_append] at hsides
    have hlword := (left.word_of_faithful
      (side_faithful_of_not_apart hleft hlinner hsides.1) hfirst).1
    have hrword := (right.word_of_faithful
      (side_faithful_of_not_apart hright hrinner hsides.2) hsecond).1
    obtain ⟨hwrap, hdiff⟩ := wrap_eq_of_apart happart hfirst hsecond
    have hmachine : (BoolExpr.intEq left right).truth
        (.ofStorage assignment lifter.resolver) = true := by
      rw [BoolExpr.intEq, BoolExpr.truth, Equation.truth, hlword, hrword, hwrap, beq_self_eq_true]
    have hinteger : (BoolExpr.intEq left right).eval (.ofStorage assignment lifter.resolver) =
        .ok false := by
      rw [BoolExpr.intEq, BoolExpr.eval, Equation.eval, hfirst, hsecond]
      exact congrArg Except.ok (beq_eq_false_iff_ne.mpr hdiff)
    rw [← hsame, hmachine] at htruth
    exact nomatch Except.ok.inj (htruth.symm.trans hinteger)
  · intro happart
    refine hagree ?_
    rw [BoolExpr.intEq, BoolExpr.equations, Equation.equations, List.forall_mem_cons]
    exact ⟨happart, hsides⟩

-- A method with two signed arguments, of a contract without storage.
def signedLifter : Lifter where
  resolver := ⟨"Signed", ⟨[]⟩, by decide, by decide⟩
  interface := ⟨"same", [⟨"x", .int 256⟩, ⟨"y", .int 256⟩]⟩
  idioms := .all

-- The first argument and a literal that it cannot take are the cases of one conditional.
def mixedCases : Machine.Expr := .ite (.lit 0) (.var "x") (.lit (BitVec.twoPow 256 255))

def mixedSide : IntExpr :=
  .ite (.intNeq (.lit 0) (.lit 0)) (.var "x" (.int 256)) (.lit (twoTo 255))

-- The second argument is the least signed value, whose word is that literal.
def leastAssignment : Assignment := ⟨.ofList [("y", BitVec.twoPow 256 255)], .empty, 0, .empty⟩

-- The machine finds the two words equal, but the specification finds different integers.
theorem mixed_cases_misread :
    (Cond.eqWords mixedCases (.var "y")).neverWraps = true ∧
      signedLifter.cond (.eqWords mixedCases (.var "y")) =
        .ok (.intEq mixedSide (.var "y" (.int 256))) ∧
      (Cond.eqWords mixedCases (.var "y")).holds leastAssignment = .ok true ∧
      (BoolExpr.intEq mixedSide (.var "y" (.int 256))).eval
        (.ofStorage leastAssignment signedLifter.resolver) = .ok false := by
  decide +kernel

-- The two sides are the two readings of one word, although nothing within them is apart.
theorem agrees_unless_apart_mixed :
    (Cond.eqWords mixedCases (.var "y")).neverWraps = true ∧
      signedLifter.cond (.eqWords mixedCases (.var "y")) =
        .ok (.intEq mixedSide (.var "y" (.int 256))) ∧
      (∀ sides ∈ mixedSide.equations ++ (IntExpr.var "y" (.int 256)).equations,
        ¬Apart (.ofStorage leastAssignment signedLifter.resolver) sides.1 sides.2) ∧
      Apart (.ofStorage leastAssignment signedLifter.resolver) mixedSide (.var "y" (.int 256)) ∧
      (Cond.eqWords mixedCases (.var "y")).holds leastAssignment ≠
        (BoolExpr.intEq mixedSide (.var "y" (.int 256))).eval
          (.ofStorage leastAssignment signedLifter.resolver) := by
  have hcond : (Cond.eqWords mixedCases (.var "y")).neverWraps = true := by decide +kernel
  have hlift : signedLifter.cond (.eqWords mixedCases (.var "y")) =
      .ok (.intEq mixedSide (.var "y" (.int 256))) := by decide +kernel
  have hinner : ∀ sides ∈ mixedSide.equations ++ (IntExpr.var "y" (.int 256)).equations,
      ¬Apart (.ofStorage leastAssignment signedLifter.resolver) sides.1 sides.2 := by
    decide +kernel
  have hapart : Apart (.ofStorage leastAssignment signedLifter.resolver) mixedSide
      (.var "y" (.int 256)) := by
    decide +kernel
  obtain ⟨machine, truth, hmachine, htruth, _, _, hiff⟩ :=
    agrees_unless_apart signedLifter leastAssignment hcond hlift
  refine ⟨hcond, hlift, hinner, hapart, fun hsame => ?_⟩
  rw [hmachine, htruth] at hsame
  exact (hiff _ _ rfl hinner).mp (Except.ok.inj hsame) hapart

end Lifter

end SpecRecovery
