import Mathlib.Data.List.Nodup
import SpecRecovery.Table

namespace SpecRecovery.Table

variable {κ ν : Type} [Ord κ]

@[simp] theorem find?_empty (key : κ) : (empty : Table κ ν).find? key = none := rfl

theorem mem_values_of_find? {table : Table κ ν} {key : κ} {value : ν}
    (h : table.find? key = some value) : value ∈ table.values := by
  obtain ⟨entry, hentry, rfl⟩ := Option.map_eq_some_iff.mp h
  exact List.mem_map_of_mem (List.mem_of_find?_eq_some hentry)

section Entries

variable [Std.LawfulEqOrd κ]

theorem find?_eq_some_of_mem_entries (table : Table κ ν) {entry : κ × ν}
    (h : entry ∈ table.entries) : table.find? entry.1 = some entry.2 := by
  obtain ⟨entries, ascending⟩ := table
  unfold find?
  simp only at h ⊢
  induction entries with
  | nil => exact nomatch h
  | cons head rest ih =>
      rw [List.pairwise_cons] at ascending
      rw [List.find?_cons]
      cases List.mem_cons.mp h with
      | inl hhead => simp [hhead]
      | inr hrest =>
          have hdiff : compare entry.1 head.1 ≠ .eq := by
            intro hsame
            have hlt := ascending.1 entry hrest
            have hself : compare head.1 head.1 = .eq := Std.ReflCmp.compare_self
            rw [Std.LawfulEqCmp.eq_of_compare hsame, hself] at hlt
            exact nomatch hlt
          simp only [beq_eq_false_iff_ne.mpr hdiff]
          exact ih ascending.2 hrest

theorem mem_entries_of_find?_eq_some (table : Table κ ν) {key : κ} {value : ν}
    (h : table.find? key = some value) : (key, value) ∈ table.entries := by
  unfold find? at h
  obtain ⟨entry, hentry, rfl⟩ := Option.map_eq_some_iff.mp h
  have hkey := List.find?_some hentry
  rw [beq_iff_eq] at hkey
  rw [Std.LawfulEqCmp.eq_of_compare hkey]
  exact List.mem_of_find?_eq_some hentry

theorem find?_eq_none_of_not_mem_keys {table : Table κ ν} {key : κ} (h : key ∉ table.keys) :
    table.find? key = none := by
  rw [Option.eq_none_iff_forall_ne_some]
  intro value hvalue
  exact h (List.mem_map_of_mem (mem_entries_of_find?_eq_some table hvalue))

theorem not_mem_keys_of_find?_eq_none {table : Table κ ν} {key : κ} (h : table.find? key = none) :
    key ∉ table.keys := by
  intro hmem
  obtain ⟨entry, hentry, rfl⟩ := List.mem_map.mp hmem
  exact nomatch (find?_eq_some_of_mem_entries table hentry).symm.trans h

theorem keys_nodup (table : Table κ ν) : table.keys.Nodup := by
  refine List.pairwise_map.mpr (table.ascending.imp fun hlt hsame => ?_)
  exact nomatch hlt.symm.trans (Std.LawfulEqCmp.compare_eq_iff_eq.mpr hsame)

end Entries

section Keys

variable [Std.LawfulEqOrd κ]

-- A key is left out only in front of the same one.
theorem mem_consKey {key other : κ} {later : List κ} :
    other ∈ consKey key later ↔ other = key ∨ other ∈ later := by
  cases later with
  | nil => exact List.mem_cons
  | cons next rest =>
      rw [consKey]
      split
      · next hsame =>
          obtain rfl := Std.LawfulEqCmp.eq_of_compare hsame
          exact (or_iff_right_of_imp fun h => h ▸ List.mem_cons_self).symm
      · exact List.mem_cons

theorem mem_foldr_consKey {sorted : List κ} {key : κ} :
    key ∈ sorted.foldr consKey [] ↔ key ∈ sorted := by
  induction sorted with
  | nil => rfl
  | cons head rest ih => rw [List.foldr_cons, mem_consKey, ih, List.mem_cons]

theorem mem_ascendingKeys {keys : List κ} {key : κ} :
    key ∈ ascendingKeys keys ↔ key ∈ keys := by
  rw [ascendingKeys, mem_foldr_consKey, List.mem_mergeSort]

end Keys

variable [Std.TransOrd κ]

theorem find?_insertEntry (entries : List (κ × ν)) (key other : κ) (value : ν) :
    ((insertEntry key value entries).find? fun entry => compare other entry.1 == .eq) =
      if compare other key = .eq then some (key, value)
      else entries.find? fun entry => compare other entry.1 == .eq := by
  induction entries with
  | nil => by_cases hkey : compare other key = .eq <;> simp [insertEntry, hkey]
  | cons head rest ih =>
      simp only [insertEntry]
      split
      · by_cases hkey : compare other key = .eq <;> simp [hkey]
      · next hsame =>
          have hcongr : compare other key = compare other head.1 :=
            Std.TransCmp.congr_right hsame
          rw [List.find?_cons, List.find?_cons, ← hcongr]
          by_cases hkey : compare other key = .eq
          · simp [hkey]
          · simp [hkey, beq_eq_false_iff_ne.mpr hkey]
      · next habove =>
          rw [List.find?_cons, List.find?_cons, ih]
          by_cases hkey : compare other key = .eq
          · have hhead : compare other head.1 = .gt :=
              (Std.TransCmp.congr_left hkey).trans habove
            simp [hkey, hhead]
          · simp [hkey]

theorem find?_insert (table : Table κ ν) (key other : κ) (value : ν) :
    (table.insert key value).find? other =
      if compare other key = .eq then some value else table.find? other := by
  unfold find? insert
  rw [find?_insertEntry]
  split <;> rfl

theorem find?_insertNew (table : Table κ ν) (key other : κ) (value : ν) :
    (table.insertNew key value).find? other =
      (table.find? other).or (if compare other key = .eq then some value else none) := by
  unfold insertNew
  by_cases hother : compare other key = .eq
  · have hsame : table.find? other = table.find? key := by
      unfold find?
      congr 1
      congr 1
      funext entry
      rw [Std.TransCmp.congr_left hother]
    by_cases hmem : table.contains key
    · obtain ⟨held, hheld⟩ := Option.isSome_iff_exists.mp hmem
      simp [hmem, hsame, hheld]
    · have hnone : table.find? key = none := by simpa [contains] using hmem
      simp [hmem, find?_insert, hother, hsame, hnone]
  · by_cases hmem : table.contains key <;> simp [hmem, find?_insert, hother]

-- Of several pairs with one key the last counts, and any pair counts more than what was there.
theorem find?_insertAll (table : Table κ ν) (pairs : List (κ × ν)) (key : κ) :
    (table.insertAll pairs).find? key =
      ((pairs.reverse.find? fun pair => compare key pair.1 == .eq).map Prod.snd).or
        (table.find? key) := by
  induction pairs generalizing table with
  | nil => simp [insertAll]
  | cons pair rest ih =>
      have hstep : table.insertAll (pair :: rest) = (table.insert pair.1 pair.2).insertAll rest :=
        rfl
      rw [hstep, ih, find?_insert, List.reverse_cons, List.find?_append]
      by_cases hkey : compare key pair.1 = .eq <;>
        cases rest.reverse.find? (fun pair => compare key pair.1 == .eq) <;> simp [hkey]

-- Nothing is found that was not put in.
theorem mem_of_find?_ofList [Std.LawfulEqOrd κ] {pairs : List (κ × ν)} {key : κ} {value : ν}
    (h : (ofList pairs).find? key = some value) : (key, value) ∈ pairs := by
  rw [ofList, find?_insertAll, find?_empty, Option.or_none] at h
  obtain ⟨pair, hpair, rfl⟩ := Option.map_eq_some_iff.mp h
  have hkey := List.find?_some hpair
  rw [beq_iff_eq] at hkey
  rw [Std.LawfulEqCmp.eq_of_compare hkey]
  exact List.mem_reverse.mp (List.mem_of_find?_eq_some hpair)

-- Where all values are alike, it does not matter which are found.
theorem getD_find?_ofList {pairs : List (κ × ν)} {value : ν} (h : ∀ pair ∈ pairs, pair.2 = value)
    (key : κ) : ((ofList pairs).find? key).getD value = value := by
  rw [ofList, find?_insertAll, find?_empty, Option.or_none]
  cases hfound : pairs.reverse.find? fun pair => compare key pair.1 == .eq with
  | none => rfl
  | some pair => exact h pair (List.mem_reverse.mp (List.mem_of_find?_eq_some hfound))

-- A key that was put in is found, though perhaps with the value of a later pair.
theorem exists_find?_ofList {pairs : List (κ × ν)} {pair : κ × ν} (h : pair ∈ pairs) :
    ∃ value, (ofList pairs).find? pair.1 = some value := by
  have hsome : (pairs.reverse.find? fun other => compare pair.1 other.1 == .eq).isSome = true := by
    rw [List.find?_isSome]
    exact ⟨pair, List.mem_reverse.mpr h, beq_iff_eq.mpr Std.ReflCmp.compare_self⟩
  obtain ⟨found, hfound⟩ := Option.isSome_iff_exists.mp hsome
  refine ⟨found.2, ?_⟩
  rw [ofList, find?_insertAll, hfound]
  rfl

-- Pairs whose keys differ are all found again.
theorem find?_ofList_of_mem [Std.LawfulEqOrd κ] {pairs : List (κ × ν)}
    (hnodup : (pairs.map Prod.fst).Nodup) {pair : κ × ν} (h : pair ∈ pairs) :
    (ofList pairs).find? pair.1 = some pair.2 := by
  have hfound : (pairs.reverse.find? fun other => compare pair.1 other.1 == .eq) = some pair := by
    cases hfind : pairs.reverse.find? fun other => compare pair.1 other.1 == .eq with
    | none =>
        have hself := List.find?_eq_none.mp hfind pair (List.mem_reverse.mpr h)
        simp at hself
    | some other =>
        have hkey := List.find?_some hfind
        rw [beq_iff_eq] at hkey
        have hmem := List.mem_reverse.mp (List.mem_of_find?_eq_some hfind)
        exact congrArg some
          (List.inj_on_of_nodup_map hnodup hmem h (Std.LawfulEqCmp.eq_of_compare hkey).symm)
  rw [ofList, find?_insertAll, hfound]
  rfl

-- Where the pairs come from items, the last item of a key counts.
theorem find?_insertAll_map [Std.LawfulEqOrd κ] [DecidableEq κ] {α : Type} (table : Table κ ν)
    (name : α → κ) (value : α → ν) (items : List α) (key : κ) :
    (table.insertAll (items.map fun item => (name item, value item))).find? key =
      ((items.reverse.find? fun item => name item == key).map value).or (table.find? key) := by
  have hkey : ∀ item, (compare key (name item) == .eq) = (name item == key) := by
    intro item
    rw [Bool.eq_iff_iff, beq_iff_eq, beq_iff_eq]
    exact Std.LawfulEqCmp.compare_eq_iff_eq.trans eq_comm
  rw [find?_insertAll, ← List.map_reverse, List.find?_map]
  simp only [Function.comp_def, hkey, Option.map_map]

end SpecRecovery.Table
