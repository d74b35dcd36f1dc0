import SpecRecovery.Proofs.Spec.Wrapping

namespace SpecRecovery

namespace Spec

variable {base exponent value : Int}

-- Bases whose powers have one digit take any exponent that is not negative.
theorem exists_power_iff : (∃ value, power base exponent = .ok value) ↔
    0 ≤ exponent ∧ (base = 0 ∨ base = 1 ∨ base = -1 ∨ exponent ≤ maximumExponent) := by
  unfold power
  by_cases hnegative : exponent < 0
  · rw [if_pos hnegative]
    constructor
    · exact fun ⟨_, h⟩ => nomatch h
    · omega
  · rw [if_neg hnegative]
    by_cases hdigit : base = 0 ∨ base = 1
    · rw [if_pos hdigit]
      exact ⟨fun _ => by omega, fun _ => ⟨_, rfl⟩⟩
    · rw [if_neg hdigit]
      by_cases hsign : base = -1
      · rw [if_pos hsign]
        exact ⟨fun _ => by omega, fun _ => ⟨_, rfl⟩⟩
      · rw [if_neg hsign]
        by_cases hsmall : exponent ≤ maximumExponent
        · rw [if_pos hsmall]
          exact ⟨fun _ => by omega, fun _ => ⟨_, rfl⟩⟩
        · rw [if_neg hsmall]
          constructor
          · exact fun ⟨_, h⟩ => nomatch h
          · omega

end Spec

namespace Word

-- The machine's power is what is left of the unbounded one, whether the base is read with or
-- without a sign. The unbounded one of a word is there exactly if the exponent is small or the base
-- at most one.
theorem powers_agree (base exponent : Word) :
    (base.power exponent).toNat = base.toNat ^ exponent.toNat % 2 ^ 256 ∧
    ((∃ value, Spec.power base.toInteger exponent.toInteger = .ok value) ↔
      base.toNat ≤ 1 ∨ exponent.toInteger ≤ Spec.maximumExponent) ∧
    ∀ reading : Int, reading = base.toInteger ∨ reading = base.toInt → ∀ value : Int,
      Spec.power reading exponent.toInteger = .ok value →
        value = reading ^ exponent.toNat ∧
          ((base.power exponent).toNat : Int) = value % 2 ^ 256 := by
  refine ⟨toNat_power base exponent, ?_, ?_⟩
  · have hbase : base.toInteger = base.toNat := rfl
    have hexponent : 0 ≤ exponent.toInteger := (unsigned_toInteger exponent).1
    rw [Spec.exists_power_iff, hbase]
    omega
  · intro reading hreading value h
    have hbase : wrap reading = base := by
      rcases hreading with rfl | rfl
      · exact wrap_toInteger base
      · exact wrap_toInt base
    have hvalue : value = reading ^ exponent.toNat := by
      rw [Spec.power_eq_ok h, toInteger, Int.toNat_natCast]
    rw [hvalue, ← toNat_wrap, ← wrap_pow, hbase]
    exact ⟨rfl, rfl⟩

-- A power that wraps, and one of all bits set, which are minus one if they are read with a sign.
theorem powers_agree_wrapping :
    Spec.power (toInteger 3) (toInteger 200) = .ok (3 ^ 200) ∧
      ((power 3 200).toNat : Int) = 3 ^ 200 % 2 ^ 256 ∧
      Spec.power max.toInt max.toInteger = .ok (-1) ∧
      ((max.power max).toNat : Int) = -1 % 2 ^ 256 := by
  have hthree : Spec.power (toInteger 3) (toInteger 200) = .ok (3 ^ 200) := rfl
  have hminus : Spec.power max.toInt max.toInteger = .ok (-1) := by decide
  obtain ⟨-, -, hread⟩ := powers_agree 3 200
  obtain ⟨-, -, hreadOnes⟩ := powers_agree max max
  exact ⟨hthree, (hread _ (.inl rfl) _ hthree).2, hminus, (hreadOnes _ (.inr rfl) _ hminus).2⟩

end Word

end SpecRecovery
