import SpecRecovery.Json.Basic
import SpecRecovery.Json.Values
import SpecRecovery.Proofs.Table.Ascending

namespace SpecRecovery.Json

section Lists

variable {α β γ : Type} {encode : α → β}

theorem mapM_map_eq_some {decode : β → Option γ} {meaning : α → γ} {values : List α}
    (h : ∀ value ∈ values, decode (encode value) = some (meaning value)) :
    (values.map encode).mapM decode = some (values.map meaning) := by
  induction values with
  | nil => rfl
  | cons value rest ih =>
      obtain ⟨hvalue, hrest⟩ := List.forall_mem_cons.mp h
      rw [List.map_cons, List.mapM_cons, hvalue, ih hrest]
      rfl

-- A list is read back if its elements are.
theorem mapM_inverts_map {decode : β → Option α} {values : List α}
    (h : ∀ value ∈ values, decode (encode value) = some value) :
    (values.map encode).mapM decode = some values := by
  rw [mapM_map_eq_some h, List.map_id']

end Lists

section Depth

theorem depth_le_of_mem {members : List (String × Json)} {depth : Nat}
    (h : depthOfMembers members ≤ depth) : ∀ member ∈ members, member.2.depth ≤ depth := by
  induction members with
  | nil => exact List.forall_mem_nil _
  | cons member rest ih =>
      rw [depthOfMembers] at h
      exact List.forall_mem_cons.mpr ⟨by omega, ih (by omega)⟩

-- A reader that reaches an alternative reaches its content with one step less.
theorem exists_of_depth_alternative {name : String} {members : List (String × Json)} {depth : Nat}
    (h : (alternative name members).depth ≤ depth) :
    ∃ inner, depth = inner + 1 ∧ ∀ member ∈ members, member.2.depth ≤ inner := by
  have hdepth : (alternative name members).depth = depthOfMembers members + 2 := by
    simp [alternative, Json.depth, depthOfMembers]
  have hmembers : depthOfMembers members ≤ depth - 1 := by omega
  exact ⟨depth - 1, by omega, depth_le_of_mem hmembers⟩

end Depth

theorem count?_count {number : Nat} (h : number < twoTo 64) : (count number).count? = some number :=
  if_pos h

namespace BigInteger

theorem ofLimbs_limbs (value : Nat) : ofLimbs (limbs value) = value := by
  fun_induction limbs value with
  | case1 => rfl
  | case2 value hvalue ih =>
      have hdivision := Nat.div_add_mod value (twoTo 32)
      rw [ofLimbs, List.foldr_cons, ← ofLimbs, ih]
      rw [Nat.mul_comm] at hdivision
      exact hdivision

theorem lt_of_mem_limbs {value : Nat} : ∀ digit ∈ limbs value, digit < twoTo 32 := by
  fun_induction limbs value with
  | case1 => exact List.forall_mem_nil _
  | case2 value hvalue ih =>
      exact List.forall_mem_cons.mpr ⟨Nat.mod_lt value (by decide), ih⟩

theorem mapM_countBelow?_limbs (value : Nat) :
    ((limbs value).map Json.count).mapM (countBelow? (twoTo 32)) = some (limbs value) :=
  mapM_inverts_map fun digit hdigit => if_pos (lt_of_mem_limbs digit hdigit)

theorem read?_write (value : Int) : read? (write value) = some value := by
  have hdigits := mapM_countBelow?_limbs value.natAbs
  have hmagnitude := ofLimbs_limbs value.natAbs
  rcases value with (_ | predecessor) | predecessor
  · change (List.mapM (countBelow? (twoTo 32)) _).bind (fun _ => some (0 : Int)) = _
    rw [hdigits]
    rfl
  · change (List.mapM (countBelow? (twoTo 32)) _).bind
      (fun digits => some (ofLimbs digits : Int)) = _
    rw [hdigits, Option.bind_some, hmagnitude]
    rfl
  · change (List.mapM (countBelow? (twoTo 32)) _).bind
      (fun digits => some (-ofLimbs digits : Int)) = _
    rw [hdigits, Option.bind_some, hmagnitude]
    rfl

end BigInteger

section Tables

variable {ν : Type} {encode : ν → Json} {decode : Json → Option ν}

theorem ofJson?_toJson_table {table : Table String ν}
    (h : ∀ entry ∈ table.entries, decode (encode entry.2) = some entry.2) :
    Table.ofJson? decode (table.toJson encode) = some table := by
  have hentries : (table.entries.map fun entry => (entry.1, encode entry.2)).mapM
      (fun member => do return (member.1, ← decode member.2)) = some table.entries :=
    mapM_inverts_map fun entry hentry => by rw [h entry hentry]; rfl
  rw [Table.ofJson?, Table.toJson, object?]
  simp only [Option.bind_eq_bind, Option.bind_some] at hentries ⊢
  rw [hentries]
  exact congrArg some (Table.ofList_entries table)

end Tables

end SpecRecovery.Json
