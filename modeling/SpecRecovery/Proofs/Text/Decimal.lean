import Mathlib.Tactic.IntervalCases
import SpecRecovery.Text.Numeral

namespace SpecRecovery.Text

def isDecimal (char : Char) : Bool := (decimalValue? char).isSome

theorem decimalValue?_digit {value : Nat} (h : value < 10) :
    decimalValue? (Char.ofNat (48 + value)) = some value := by
  interval_cases value <;> rfl

theorem isDecimal_of_mem_decimalDigits {value : Nat} :
    ∀ digit ∈ decimalDigits value, isDecimal digit = true := by
  have hdigit {small : Nat} (h : small < 10) : isDecimal (Char.ofNat (48 + small)) = true := by
    rw [isDecimal, decimalValue?_digit h]
    rfl
  fun_induction decimalDigits value with
  | case1 value h =>
      rw [List.forall_mem_singleton]
      exact hdigit h
  | case2 value h ih =>
      rw [List.forall_mem_append, List.forall_mem_singleton]
      exact ⟨ih, hdigit (Nat.mod_lt value (by decide))⟩

theorem decimalDigits_ne_nil (value : Nat) : decimalDigits value ≠ [] := by
  unfold decimalDigits
  split <;> simp

-- The digits of a number are read as this number.
theorem numberOfDecimal?_decimalDigits (value : Nat) :
    numberOfDecimal? (decimalDigits value) = some value := by
  rw [numberOfDecimal?, if_neg (by simp [decimalDigits_ne_nil])]
  fun_induction decimalDigits value with
  | case1 value h =>
      simp [decimalValue?_digit h]
  | case2 value h ih =>
      rw [List.foldlM_append, ih]
      have hvalue := decimalValue?_digit (Nat.mod_lt value (show 10 > 0 by decide))
      have hdivision : 10 * (value / 10) + value % 10 = value := Nat.div_add_mod value 10
      simp [hvalue, hdivision]

theorem decimalDigits_injective : Function.Injective decimalDigits := by
  intro first second h
  have hread := numberOfDecimal?_decimalDigits first
  rw [h, numberOfDecimal?_decimalDigits] at hread
  exact (Option.some.inj hread).symm

theorem countOfDecimal?_decimalDigits {limit value : Nat} (h : value < limit) :
    countOfDecimal? limit (decimalDigits value) = some value := by
  have hdigits : ∀ digit ∈ decimalDigits value, isDecimal digit = true :=
    isDecimal_of_mem_decimalDigits
  have hnumber := numberOfDecimal?_decimalDigits value
  unfold countOfDecimal?
  split
  · next rest hplus =>
      rw [hplus] at hdigits
      exact absurd (hdigits '+' List.mem_cons_self) (by decide)
  · simp [hnumber, h]

-- What is read as a number consists of digits.
theorem isDecimal_of_numberOfDecimal? {digits : List Char} {value : Nat}
    (h : numberOfDecimal? digits = some value) : ∀ digit ∈ digits, isDecimal digit = true := by
  unfold numberOfDecimal? at h
  split at h
  · exact nomatch h
  · next hsome =>
      clear hsome
      generalize 0 = total at h
      induction digits generalizing total with
      | nil => exact List.forall_mem_nil _
      | cons digit rest ih =>
          rw [List.foldlM_cons, Option.bind_eq_bind, Option.bind_eq_some_iff] at h
          obtain ⟨next, hnext, h⟩ := h
          obtain ⟨read, hread, rfl⟩ := Option.map_eq_some_iff.mp hnext
          rw [List.forall_mem_cons, isDecimal, hread]
          exact ⟨rfl, ih _ h⟩

theorem countOfDecimal?_eq_some {limit value : Nat} {text : List Char}
    (h : countOfDecimal? limit text = some value) :
    value < limit ∧ ∀ char ∈ text, isDecimal char = true ∨ char = '+' := by
  unfold countOfDecimal? at h
  obtain ⟨count, hcount, h⟩ := Option.bind_eq_some_iff.mp h
  have hdigits := isDecimal_of_numberOfDecimal? hcount
  split at h
  · next hlimit =>
      obtain rfl := Option.some.inj h
      refine ⟨hlimit, ?_⟩
      split at hdigits
      · exact List.forall_mem_cons.mpr ⟨.inr rfl, fun char hchar => .inl (hdigits char hchar)⟩
      · exact fun char hchar => .inl (hdigits char hchar)
  · exact nomatch h

-- The number that digits stand for, leading zeros included.
def decimalNumber (digits : List Char) : Nat :=
  digits.foldl (fun number digit => 10 * number + (digit.toNat - 48)) 0

theorem decimalValue?_of_isDigit {digit : Char} (h : digit.isDigit = true) :
    decimalValue? digit = some (digit.toNat - 48) := by
  have hrange : '0' ≤ digit ∧ digit ≤ '9' := by
    simpa [Char.isDigit, Char.le_def] using h
  rw [decimalValue?, if_pos hrange]

theorem countOfDecimal?_of_digits {limit : Nat} {digits : List Char} (hsome : digits ≠ [])
    (hdigits : ∀ digit ∈ digits, digit.isDigit = true) (hlimit : decimalNumber digits < limit) :
    countOfDecimal? limit digits = some (decimalNumber digits) := by
  have hfold : ∀ number, digits.foldlM
      (fun total digit => (decimalValue? digit).map (10 * total + ·)) number =
        some (digits.foldl (fun number digit => 10 * number + (digit.toNat - 48)) number) := by
    clear hsome hlimit
    induction digits with
    | nil => exact fun _ => rfl
    | cons digit rest ih =>
        obtain ⟨hdigit, hrest⟩ := List.forall_mem_cons.mp hdigits
        intro number
        rw [List.foldlM_cons, decimalValue?_of_isDigit hdigit]
        exact ih hrest _
  have hnumber : numberOfDecimal? digits = some (decimalNumber digits) := by
    rw [numberOfDecimal?, if_neg (by simpa using hsome), hfold, decimalNumber]
  unfold countOfDecimal?
  split
  · next rest =>
      exact absurd (hdigits '+' List.mem_cons_self) (by decide)
  · simp [hnumber, hlimit]

end SpecRecovery.Text
