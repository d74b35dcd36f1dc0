import Mathlib.Data.List.Basic

namespace SpecRecovery.Text

-- No front of the text closes more parentheses than it opens, and all are closed at the end.
structure Balanced (text : List Char) : Prop where
  opened : ∀ length, (text.take length).count ')' ≤ (text.take length).count '('
  closed : text.count ')' = text.count '('

def isParenthesis (char : Char) : Bool := char == '(' || char == ')'

theorem balanced_of_forall {text : List Char} (h : ∀ char ∈ text, isParenthesis char = false) :
    Balanced text := by
  have hnone : ∀ front : List Char, (∀ char ∈ front, isParenthesis char = false) →
      front.count ')' = 0 ∧ front.count '(' = 0 := by
    intro front hfront
    rw [List.count_eq_zero, List.count_eq_zero]
    exact ⟨fun hclose => absurd (hfront _ hclose) (by decide),
      fun hopen => absurd (hfront _ hopen) (by decide)⟩
  constructor
  · intro length
    rw [(hnone _ fun char hchar => h char (List.mem_of_mem_take hchar)).1]
    exact Nat.zero_le _
  · rw [(hnone text h).1, (hnone text h).2]

theorem Balanced.append {first second : List Char} (hfirst : Balanced first)
    (hsecond : Balanced second) : Balanced (first ++ second) := by
  constructor
  · intro length
    have hone := hfirst.opened length
    have hother := hsecond.opened (length - first.length)
    rw [List.take_append, List.count_append, List.count_append]
    omega
  · rw [List.count_append, List.count_append, hfirst.closed, hsecond.closed]

theorem Balanced.inParentheses {body : List Char} (h : Balanced body) :
    Balanced ('(' :: body ++ [')']) := by
  constructor
  · intro length
    cases length with
    | zero => exact Nat.le_refl _
    | succ length =>
        have hbody := h.opened length
        have hlast : ([')'].take (length - body.length)).count ')' ≤ 1 :=
          Nat.le_trans ((List.take_sublist _ _).count_le _) (by decide)
        rw [List.cons_append, List.take_succ_cons, List.take_append,
          List.count_cons_of_ne (by decide), List.count_cons_self, List.count_append,
          List.count_append]
        omega
  · simp [h.closed]

end SpecRecovery.Text
