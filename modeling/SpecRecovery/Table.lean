namespace SpecRecovery

-- A finite map whose keys ascend strictly, so that equal maps have equal entries.
structure Table (κ ν : Type) [Ord κ] where
  entries : List (κ × ν)
  ascending : entries.Pairwise fun first second => compare first.1 second.1 = .lt
deriving DecidableEq

namespace Table

variable {κ ν : Type} [Ord κ]

def empty : Table κ ν := ⟨[], .nil⟩

instance : EmptyCollection (Table κ ν) := ⟨empty⟩

instance : Inhabited (Table κ ν) := ⟨empty⟩

def isEmpty (table : Table κ ν) : Bool := table.entries.isEmpty

def keys (table : Table κ ν) : List κ := table.entries.map Prod.fst

def values (table : Table κ ν) : List ν := table.entries.map Prod.snd

def find? (table : Table κ ν) (key : κ) : Option ν :=
  (table.entries.find? fun entry => compare key entry.1 == .eq).map Prod.snd

def contains (table : Table κ ν) (key : κ) : Bool := (table.find? key).isSome

def insertEntry (key : κ) (value : ν) : List (κ × ν) → List (κ × ν)
  | [] => [(key, value)]
  | entry :: rest =>
      match compare key entry.1 with
      | .lt => (key, value) :: entry :: rest
      | .eq => (key, value) :: rest
      | .gt => entry :: insertEntry key value rest

theorem mem_insertEntry {key : κ} {value : ν} {entries : List (κ × ν)} {entry : κ × ν}
    (h : entry ∈ insertEntry key value entries) : entry = (key, value) ∨ entry ∈ entries := by
  induction entries with
  | nil => exact Or.inl (by simpa [insertEntry] using h)
  | cons head rest ih =>
      simp only [insertEntry] at h
      split at h
      · simpa using h
      · cases List.mem_cons.mp h with
        | inl same => exact Or.inl same
        | inr later => exact Or.inr (List.mem_cons_of_mem _ later)
      · cases List.mem_cons.mp h with
        | inl same => exact Or.inr (same ▸ List.mem_cons_self)
        | inr later => exact (ih later).imp_right (List.mem_cons_of_mem _)

variable [Std.TransOrd κ]

theorem ascending_insertEntry (key : κ) (value : ν) {entries : List (κ × ν)}
    (h : entries.Pairwise fun first second => compare first.1 second.1 = .lt) :
    (insertEntry key value entries).Pairwise
      fun first second => compare first.1 second.1 = .lt := by
  induction entries with
  | nil => simp [insertEntry]
  | cons head rest ih =>
      rw [List.pairwise_cons] at h
      simp only [insertEntry]
      split
      · next below =>
          refine List.pairwise_cons.mpr ⟨?_, List.pairwise_cons.mpr h⟩
          intro entry hentry
          cases List.mem_cons.mp hentry with
          | inl same => exact same ▸ below
          | inr later => exact Std.TransCmp.lt_trans below (h.1 entry later)
      · next same =>
          refine List.pairwise_cons.mpr ⟨?_, h.2⟩
          intro entry later
          exact Std.TransCmp.lt_of_eq_of_lt same (h.1 entry later)
      · next above =>
          refine List.pairwise_cons.mpr ⟨?_, ih h.2⟩
          intro entry hentry
          cases mem_insertEntry hentry with
          | inl new => exact new ▸ Std.OrientedCmp.lt_of_gt above
          | inr later => exact h.1 entry later

def insert (table : Table κ ν) (key : κ) (value : ν) : Table κ ν :=
  ⟨insertEntry key value table.entries, ascending_insertEntry key value table.ascending⟩

def insertNew (table : Table κ ν) (key : κ) (value : ν) : Table κ ν :=
  if table.contains key then table else table.insert key value

-- A later pair replaces an earlier one of the same key.
def insertAll (table : Table κ ν) (pairs : List (κ × ν)) : Table κ ν :=
  pairs.foldl (fun table pair => table.insert pair.1 pair.2) table

def ofList (pairs : List (κ × ν)) : Table κ ν := empty.insertAll pairs

def consKey (key : κ) : List κ → List κ
  | [] => [key]
  | next :: later => if compare key next = .eq then next :: later else key :: next :: later

def ascendingKeys (keys : List κ) : List κ :=
  (keys.mergeSort fun first second => (compare first second).isLE).foldr consKey []

end Table

end SpecRecovery
