import SpecRecovery.Proofs.Table.Lookup

namespace SpecRecovery.Table

variable {κ ν : Type} [Ord κ] [Std.TransOrd κ]

section Keys

theorem ascending_consKey {key : κ} {later : List κ}
    (hlater : later.Pairwise fun first second => compare first second = .lt)
    (hkey : ∀ other ∈ later, (compare key other).isLE = true) :
    (consKey key later).Pairwise fun first second => compare first second = .lt := by
  cases later with
  | nil => exact List.pairwise_singleton _ _
  | cons next rest =>
      rw [consKey]
      split
      · exact hlater
      · next hdiff =>
          have hnext : compare key next = .lt :=
            (Ordering.isLE_iff_eq_lt_or_eq_eq.mp (hkey next List.mem_cons_self)).resolve_right hdiff
          rw [List.pairwise_cons] at hlater
          refine List.pairwise_cons.mpr ⟨?_, List.pairwise_cons.mpr hlater⟩
          intro other hother
          cases List.mem_cons.mp hother with
          | inl same => exact same ▸ hnext
          | inr later => exact Std.TransCmp.lt_trans hnext (hlater.1 other later)

theorem isLE_or_isLE (first second : κ) :
    ((compare first second).isLE || (compare second first).isLE) = true := by
  cases hcompare : compare first second with
  | lt | eq => rfl
  | gt => rw [Std.OrientedCmp.lt_of_gt hcompare]; rfl

-- A sorted list without its repetitions ascends strictly.
theorem ascending_foldr_consKey [Std.LawfulEqOrd κ] {sorted : List κ}
    (h : sorted.Pairwise fun first second => (compare first second).isLE = true) :
    (sorted.foldr consKey []).Pairwise fun first second => compare first second = .lt := by
  induction sorted with
  | nil => exact .nil
  | cons key rest ih =>
      rw [List.pairwise_cons] at h
      refine ascending_consKey (ih h.2) fun other hother => ?_
      exact h.1 other (mem_foldr_consKey.mp hother)

theorem ascending_ascendingKeys [Std.LawfulEqOrd κ] (keys : List κ) :
    (ascendingKeys keys).Pairwise fun first second => compare first second = .lt :=
  ascending_foldr_consKey
    (List.pairwise_mergeSort (fun _ _ _ => Std.TransCmp.isLE_trans) isLE_or_isLE keys)

omit [Std.TransOrd κ] in
theorem exists_foldr_consKey [Std.LawfulEqOrd κ] (key : κ) (rest : List κ) :
    ∃ later, (key :: rest).foldr consKey [] = key :: later := by
  rw [List.foldr_cons]
  cases rest.foldr consKey [] with
  | nil => exact ⟨[], rfl⟩
  | cons next later =>
      rw [consKey]
      split
      · next hsame => exact ⟨later, by rw [Std.LawfulEqCmp.eq_of_compare hsame]⟩
      · exact ⟨next :: later, rfl⟩

omit [Std.TransOrd κ] in
-- Immediate repetitions can be left out from the end as well as from the start.
theorem eraseReps_eq_foldr_consKey [Std.LawfulEqOrd κ] [BEq κ] [LawfulBEq κ] (keys : List κ) :
    keys.eraseReps = keys.foldr consKey [] := by
  have hloop (head : κ) (rest found : List κ) :
      List.eraseRepsBy.loop (· == ·) head rest found =
        found.reverse ++ (head :: rest).foldr consKey [] := by
    induction rest generalizing head found with
    | nil => simp [List.eraseRepsBy.loop, consKey]
    | cons next rest ih =>
        obtain ⟨later, hlater⟩ := exists_foldr_consKey next rest
        rw [List.eraseRepsBy.loop, List.foldr_cons, hlater, consKey]
        split
        · next hsame =>
            obtain rfl := eq_of_beq hsame
            rw [ih, hlater, if_pos Std.ReflCmp.compare_self]
        · next hdiff =>
            have hcompare : compare head next ≠ .eq := fun heq =>
              absurd (Std.LawfulEqCmp.eq_of_compare heq) (ne_of_beq_false hdiff)
            rw [ih, hlater, if_neg hcompare, List.reverse_cons, List.append_assoc]
            rfl
  cases keys with
  | nil => rfl
  | cons head rest => exact (hloop head rest []).trans (List.nil_append _)

end Keys

section Entries

-- An entry whose key is above all others goes to the end.
theorem insertEntry_of_above {entries : List (κ × ν)} {key : κ} (value : ν)
    (h : ∀ entry ∈ entries, compare entry.1 key = .lt) :
    insertEntry key value entries = entries ++ [(key, value)] := by
  induction entries with
  | nil => rfl
  | cons head rest ih =>
      rw [List.forall_mem_cons] at h
      rw [insertEntry, Std.OrientedCmp.gt_of_lt h.1, List.cons_append, ← ih h.2]

theorem entries_insertAll {table : Table κ ν} {pairs : List (κ × ν)}
    (h : (table.entries ++ pairs).Pairwise fun first second => compare first.1 second.1 = .lt) :
    (table.insertAll pairs).entries = table.entries ++ pairs := by
  induction pairs generalizing table with
  | nil => exact (List.append_nil _).symm
  | cons pair rest ih =>
      have hstep : table.insertAll (pair :: rest) = (table.insert pair.1 pair.2).insertAll rest :=
        rfl
      have habove := (List.pairwise_append.mp h).2.2
      have hinsert : (table.insert pair.1 pair.2).entries = table.entries ++ [pair] :=
        insertEntry_of_above pair.2 fun entry hentry => habove entry hentry pair List.mem_cons_self
      have hrest : (table.insert pair.1 pair.2).entries ++ rest =
          table.entries ++ pair :: rest := by
        rw [hinsert, List.append_assoc, List.singleton_append]
      rw [hstep, ih (hrest ▸ h), hrest]

-- A table is what its own entries make up.
theorem ofList_entries (table : Table κ ν) : ofList table.entries = table := by
  have hentries : (ofList table.entries).entries = table.entries :=
    entries_insertAll table.ascending
  cases hofList : ofList table.entries
  cases table
  rw [hofList] at hentries
  obtain rfl := hentries
  rfl

end Entries

end SpecRecovery.Table
