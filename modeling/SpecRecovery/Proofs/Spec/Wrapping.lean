import SpecRecovery.Proofs.Abi.Range
import SpecRecovery.Proofs.Result
import SpecRecovery.Proofs.Word.Integer
import SpecRecovery.Spec.Valuation

namespace SpecRecovery.Spec

theorem interpret_eq (word : Word) (type : AbiType) :
    interpret word type = if type.isSigned then word.toInt else word.toInteger := by
  rw [interpret, Word.toSigned_sizeBits]

theorem wrap_interpret (word : Word) (type : AbiType) : Word.wrap (interpret word type) = word := by
  rw [interpret_eq]
  split
  · exact Word.wrap_toInt word
  · exact Word.wrap_toInteger word

theorem interpret_signed {type : AbiType} (word : Word) (h : type.isSigned = true) :
    interpret word type = word.toInt := by
  rw [interpret_eq, if_pos h]

theorem interpret_unsigned {type : AbiType} (word : Word) (h : type.isSigned = false) :
    interpret word type = word.toInteger := by
  simp [interpret, h]

namespace Valuation

def variableWord (valuation : Valuation) (name : String) : Word :=
  (valuation.calldata.find? name).getD 0

def environmentWord (valuation : Valuation) (value : Environment) : Word :=
  (valuation.environment.find? value).getD 0

def storedValue (valuation : Valuation) : Timing → String → Int
  | .pre => valuation.preValue
  | .post => valuation.postValue

end Valuation

-- What the machine makes of an expression, where integers wrap. A range fact is about an integer,
-- which is computed without wrapping from the values that are known exactly. Only the truths on
-- which the integer depends are those that the machine sees.
mutual

def IntExpr.word (valuation : Valuation) : IntExpr → Word
  | .lit value => Word.wrap value
  | .var name _ => valuation.variableWord name
  | .env value => valuation.environmentWord value
  | .entry timing item => Word.wrap (valuation.storedValue timing item.name)
  | .arithmetic op left right => op.onWords (left.word valuation) (right.word valuation)
  | .ite condition first second =>
      if condition.truth valuation then first.word valuation else second.word valuation

def IntExpr.integer (valuation : Valuation) : IntExpr → Int
  | .lit value => value
  | .var name type => interpret (valuation.variableWord name) type
  | .env value => (valuation.environmentWord value).toInteger
  | .entry timing item => valuation.storedValue timing item.name
  | .arithmetic op left right => op.onIntegers (left.integer valuation) (right.integer valuation)
  | .ite condition first second =>
      if condition.truth valuation then first.integer valuation else second.integer valuation

def BoolExpr.truth (valuation : Valuation) : BoolExpr → Bool
  | .lit value => value
  | .join op left right => (op.decided? (left.truth valuation)).getD (right.truth valuation)
  | .neg value => !value.truth valuation
  | .compare op left right => op.onWords (left.word valuation) (right.word valuation)
  | .eq equation => equation.truth valuation
  | .neq equation => !equation.truth valuation
  | .inRange type value => type.holds (value.integer valuation)

def Equation.truth (valuation : Valuation) : Equation → Bool
  | .integer left right => left.word valuation == right.word valuation
  | .boolean left right => left.truth valuation == right.truth valuation
  | .byteString left right => left == right
  | .contract left right => left == right

end

-- An expression has an integer value that one word holds.
def IntExpr.FitsUnsigned (valuation : Valuation) (expr : IntExpr) : Prop :=
  ∃ value, expr.eval valuation = .ok value ∧ Word.Unsigned value

-- The machine reads all operands as they are meant: those of unsigned operations are words, and
-- the sides of an equation are equal as integers if they are equal as words.
mutual

def IntExpr.Faithful (valuation : Valuation) : IntExpr → Prop
  | .arithmetic op left right =>
      left.Faithful valuation ∧ right.Faithful valuation ∧
        (op.readsUnsigned = true → left.FitsUnsigned valuation ∧ right.FitsUnsigned valuation)
  | .ite condition first second =>
      condition.Faithful valuation ∧ first.Faithful valuation ∧ second.Faithful valuation
  | .lit _ | .var _ _ | .env _ | .entry _ _ => True

def BoolExpr.Faithful (valuation : Valuation) : BoolExpr → Prop
  | .lit _ => True
  | .join _ left right => left.Faithful valuation ∧ right.Faithful valuation
  | .neg value => value.Faithful valuation
  | .compare _ left right =>
      left.Faithful valuation ∧ right.Faithful valuation ∧
        left.FitsUnsigned valuation ∧ right.FitsUnsigned valuation
  | .eq equation => equation.Faithful valuation
  | .neq equation => equation.Faithful valuation
  | .inRange type value =>
      value.Faithful valuation ∧ type.integerRange.isSome = true ∧
        ∃ integer, value.eval valuation = .ok integer

def Equation.Faithful (valuation : Valuation) : Equation → Prop
  | .integer left right =>
      left.Faithful valuation ∧ right.Faithful valuation ∧
        ∃ first second, left.eval valuation = .ok first ∧ right.eval valuation = .ok second ∧
          (Word.wrap first = Word.wrap second → first = second)
  | .boolean left right => left.Faithful valuation ∧ right.Faithful valuation
  | .byteString left right => left = right
  | .contract left right => left = right

end

theorem power_eq_ok {base exponent value : Int} (h : power base exponent = .ok value) :
    value = base ^ exponent.toNat := by
  unfold power at h
  split at h
  · exact nomatch h
  · next hnonneg =>
      split at h
      · next hbase =>
          obtain rfl := Except.ok.inj h
          rcases hbase with rfl | rfl
          · split
            · next hzero => simp [hzero]
            · rw [zero_pow (by omega)]
          · simp
      · split at h
        · next hbase =>
            obtain rfl := Except.ok.inj h
            subst hbase
            split
            · next heven => rw [Even.neg_one_pow ((Nat.even_iff).mpr (by omega))]
            · next hodd => rw [Odd.neg_one_pow ((Nat.odd_iff).mpr (by omega))]
        · split at h
          · exact (Except.ok.inj h).symm
          · exact nomatch h

end SpecRecovery.Spec
