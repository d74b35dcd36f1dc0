import Mathlib.Data.List.InsertIdx
import SpecRecovery.Failure.Report

namespace SpecRecovery

namespace EntryPoint

theorem eq_of_compare {first second : EntryPoint} (h : compare first second = .eq) :
    first = second := by
  obtain ⟨hrank, hsignature⟩ := Ordering.then_eq_eq.mp h
  have hsame : first.signature = second.signature := Std.LawfulEqCmp.eq_of_compare hsignature
  have hkind : first.rank = second.rank := Std.LawfulEqCmp.eq_of_compare hrank
  cases first <;> cases second <;> simp_all [rank, signature]

instance : Std.LawfulEqOrd EntryPoint := ⟨eq_of_compare⟩

end EntryPoint

namespace FailureReport

-- If later items pass a test only together with the earlier ones, a list is cut in two.
theorem exists_cut {α : Type} (test : α → Bool) {items : List α}
    (h : items.Pairwise fun earlier later => test later = true → test earlier = true) :
    ∃ passing failing, items = passing ++ failing ∧ (∀ item ∈ passing, test item = true) ∧
      ∀ item ∈ failing, test item = false := by
  induction items with
  | nil => exact ⟨[], [], rfl, by simp, by simp⟩
  | cons head rest ih =>
      obtain ⟨hhead, hrest⟩ := List.pairwise_cons.mp h
      cases htest : test head with
      | true =>
          obtain ⟨passing, failing, rfl, hpassing, hfailing⟩ := ih hrest
          exact ⟨head :: passing, failing, rfl, List.forall_mem_cons.mpr ⟨htest, hpassing⟩,
            hfailing⟩
      | false =>
          refine ⟨[], head :: rest, rfl, by simp, List.forall_mem_cons.mpr ⟨htest, ?_⟩⟩
          intro item hitem
          rw [← Bool.not_eq_true]
          exact fun hpass => absurd (hhead item hitem hpass) (by simp [htest])

-- The span always holds the place of the cut, and at the end nothing else.
theorem boundary_eq_of_cut {α : Type} {test : α → Bool} {passing failing : List α}
    (hpassing : ∀ item ∈ passing, test item = true)
    (hfailing : ∀ item ∈ failing, test item = false) {base size : Nat}
    (hlow : base ≤ passing.length) (hhigh : passing.length ≤ base + size)
    (hsize : base + size ≤ (passing ++ failing).length) :
    boundary test (passing ++ failing).toArray base size = passing.length := by
  have htest : ∀ index item, (passing ++ failing).toArray[index]? = some item →
      (test item = true ↔ index < passing.length) := by
    intro index item hitem
    rw [List.getElem?_toArray] at hitem
    by_cases hindex : index < passing.length
    · rw [List.getElem?_append_left hindex] at hitem
      simp [hindex, hpassing item (List.mem_of_getElem? hitem)]
    · rw [List.getElem?_append_right (by omega)] at hitem
      simp [hindex, hfailing item (List.mem_of_getElem? hitem)]
  fun_induction boundary test (passing ++ failing).toArray base size with
  | case1 base size hsmall item hitem hpass =>
      have hbelow := (htest base item hitem).mp hpass.2
      omega
  | case2 base size hsmall item hitem hpass =>
      by_cases hone : size = 1
      · have habove : ¬base < passing.length :=
          fun hbelow => hpass ⟨hone, (htest base item hitem).mpr hbelow⟩
        omega
      · omega
  | case3 base size hsmall hnone =>
      rw [List.getElem?_toArray, List.getElem?_eq_none_iff] at hnone
      omega
  | case4 base size hsmall half passes ih =>
      have hhalf : half = size / 2 := rfl
      have hmiddle : base + half < (passing ++ failing).length := by omega
      have hitem : (passing ++ failing).toArray[base + half]? =
          some ((passing ++ failing)[base + half]) := by
        rw [List.getElem?_toArray, List.getElem?_eq_getElem hmiddle]
      have hpasses : passes = true ↔ base + half < passing.length := by
        rw [← htest _ _ hitem]
        simp only [passes, hitem, Option.any_some]
      split at ih
      · next hcase =>
          have hreached := hpasses.mp hcase
          rw [if_pos hcase]
          exact ih (by omega) (by omega) (by omega)
      · next hcase =>
          have hmissed := mt hpasses.mpr hcase
          rw [if_neg hcase]
          exact ih hlow (by omega) (by omega)

variable {report : FailureReport} {failures : List LocatedFailure}

-- The failures stand in the order of their entry points.
def Ordered (report : FailureReport) : Prop :=
  report.failures.Pairwise fun earlier later => (compare earlier.location later.location).isLE

theorem add_eq_of_cut {early late : List LocatedFailure} (failure : LocatedFailure)
    (hearly : ∀ other ∈ early, (compare other.location failure.location).isLE = true)
    (hlate : ∀ other ∈ late, (compare other.location failure.location).isLE = false) :
    (FailureReport.mk (early ++ late)).add failure = ⟨early ++ failure :: late⟩ := by
  have hindex : insertionIndex ⟨early ++ late⟩ failure.location = early.length :=
    boundary_eq_of_cut hearly hlate (Nat.zero_le _) (by simp [length]) (by simp [length])
  have hinsert : (early ++ late).insertIdx early.length failure = early ++ failure :: late := by
    clear hearly hlate hindex
    induction early with
    | nil => simp
    | cons head rest ih => simpa using ih
  rw [add, hindex, hinsert]

-- A new failure stands behind all at its own and at earlier entry points and before all others.
theorem exists_add (hordered : report.Ordered) (failure : LocatedFailure) :
    ∃ early late, report.failures = early ++ late ∧
      (report.add failure).failures = early ++ failure :: late ∧
      (∀ other ∈ early, (compare other.location failure.location).isLE = true) ∧
      ∀ other ∈ late, (compare other.location failure.location).isLE = false := by
  obtain ⟨early, late, hcut, hearly, hlate⟩ :=
    exists_cut (fun other : LocatedFailure => (compare other.location failure.location).isLE)
      (hordered.imp fun hle hlater => Std.TransCmp.isLE_trans hle hlater)
  refine ⟨early, late, hcut, ?_, hearly, hlate⟩
  obtain ⟨failures⟩ := report
  obtain rfl : failures = early ++ late := hcut
  rw [add_eq_of_cut failure hearly hlate]

-- The report holds all the given failures and no others, ordered by entry point. At each entry
-- point they keep the order in which they are given.
structure Collects (report : FailureReport) (failures : List LocatedFailure) : Prop where
  perm : report.failures.Perm failures
  ordered : report.Ordered
  stable : ∀ entry, report.failures.filter (fun failure => failure.location == entry) =
    failures.filter fun failure => failure.location == entry

theorem ordered_add (hordered : report.Ordered) (failure : LocatedFailure) :
    (report.add failure).Ordered := by
  obtain ⟨early, late, hcut, hadd, hearly, hlate⟩ := exists_add hordered failure
  rw [Ordered, hcut, List.pairwise_append] at hordered
  obtain ⟨hbefore, hafter, hacross⟩ := hordered
  rw [Ordered, hadd, List.pairwise_append, List.pairwise_cons]
  refine ⟨hbefore, ⟨fun other hother => ?_, hafter⟩, fun first hfirst second hsecond => ?_⟩
  · have hgreater := Ordering.isLE_eq_false.mp (hlate other hother)
    exact Ordering.isLE_of_eq_lt (Std.OrientedCmp.lt_of_gt hgreater)
  · cases List.mem_cons.mp hsecond with
    | inl hnew => exact hnew ▸ hearly first hfirst
    | inr hold => exact hacross first hfirst second hold

theorem collects_add (h : report.Collects failures) (failure : LocatedFailure) :
    (report.add failure).Collects (failures ++ [failure]) := by
  obtain ⟨early, late, hcut, hadd, hearly, hlate⟩ := exists_add h.ordered failure
  constructor
  case perm =>
    rw [hadd]
    refine List.perm_middle.trans ((List.Perm.cons failure ?_).trans
      (List.perm_append_singleton failure failures).symm)
    rw [← hcut]
    exact h.perm
  case ordered => exact ordered_add h.ordered failure
  case stable =>
    intro entry
    have hstable := h.stable entry
    rw [hcut, List.filter_append] at hstable
    rw [hadd, List.filter_append, List.filter_append, ← hstable, List.filter_cons,
      List.filter_cons, List.filter_nil]
    split
    · next hsame =>
        rw [beq_iff_eq] at hsame
        have hnone : late.filter (fun failure => failure.location == entry) = [] := by
          rw [List.filter_eq_nil_iff]
          intro other hother hlocation
          rw [beq_iff_eq] at hlocation
          have hself : compare entry entry = .eq := Std.ReflCmp.compare_self
          have hgreater := hlate other hother
          rw [hlocation, hsame, hself] at hgreater
          exact nomatch hgreater
        rw [hnone, List.append_nil]
    · rw [List.append_nil]

theorem collects_addAll (h : report.Collects failures) (more : List LocatedFailure) :
    (report.addAll more).Collects (failures ++ more) := by
  induction more generalizing report failures with
  | nil => simpa [addAll] using h
  | cons failure rest ih => simpa [addAll] using ih (collects_add h failure)

theorem collects_empty : empty.Collects [] := ⟨.refl _, .nil, fun _ => rfl⟩

theorem isLE_of_mem {head failure : LocatedFailure} {rest : List LocatedFailure}
    (h : Ordered ⟨head :: rest⟩) (hmem : failure ∈ head :: rest) :
    (compare head.location failure.location).isLE = true := by
  cases List.mem_cons.mp hmem with
  | inl hsame =>
      have hself : compare head.location head.location = .eq := Std.ReflCmp.compare_self
      rw [hsame, hself]
      rfl
  | inr hlater => exact (List.pairwise_cons.mp h).1 failure hlater

-- Lists in the order of entry points that agree at each entry point are the same.
theorem eq_of_ordered {first second : List LocatedFailure} (hfirst : Ordered ⟨first⟩)
    (hsecond : Ordered ⟨second⟩)
    (h : ∀ entry, first.filter (fun failure => failure.location == entry) =
      second.filter fun failure => failure.location == entry) : first = second := by
  induction first generalizing second with
  | nil =>
      cases second with
      | nil => rfl
      | cons other others => simpa using h other.location
  | cons head rest ih =>
      cases second with
      | nil => simpa using h head.location
      | cons other others =>
          have hmem (failure : LocatedFailure) :
              failure ∈ head :: rest ↔ failure ∈ other :: others := by
            simpa using congrArg (failure ∈ ·) (h failure.location)
          have hlocation : head.location = other.location :=
            EntryPoint.eq_of_compare (Std.OrientedCmp.isLE_antisymm
              (isLE_of_mem hfirst ((hmem other).mpr List.mem_cons_self))
              (isLE_of_mem hsecond ((hmem head).mp List.mem_cons_self)))
          have hsame := h head.location
          rw [List.filter_cons_of_pos (by simp), List.filter_cons_of_pos (by simp [hlocation])]
            at hsame
          obtain rfl := (List.cons.inj hsame).1
          have hrest (entry : EntryPoint) :
              rest.filter (fun failure => failure.location == entry) =
                others.filter fun failure => failure.location == entry := by
            have hentry := h entry
            rw [List.filter_cons, List.filter_cons] at hentry
            split at hentry
            · exact (List.cons.inj hentry).2
            · exact hentry
          rw [ih (List.pairwise_cons.mp hfirst).2 (List.pairwise_cons.mp hsecond).2 hrest]

theorem Collects.unique {other : FailureReport} (h : report.Collects failures)
    (hother : other.Collects failures) : report = other := by
  obtain ⟨first⟩ := report
  obtain ⟨second⟩ := other
  rw [eq_of_ordered h.ordered hother.ordered fun entry =>
    (h.stable entry).trans (hother.stable entry).symm]

end FailureReport

end SpecRecovery
