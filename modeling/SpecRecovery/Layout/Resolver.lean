import SpecRecovery.Failure.Basic
import SpecRecovery.Layout.Basic
import SpecRecovery.Spec.Expression

namespace SpecRecovery

structure Resolver where
  contract : String
  layout : Layout
  names_nodup : (layout.declarations.map StorageVariable.name).Nodup
  positions_nodup : (layout.declarations.map StorageVariable.position).Nodup

namespace Resolver

-- A shared position is reported with both names.
def overlap? (before : List StorageVariable) : List StorageVariable → Option StorageError
  | [] => none
  | stored :: rest =>
      match before.find? fun earlier => earlier.position == stored.position with
      | some earlier => some (.overlappingVariables earlier.name stored.name)
      | none =>
          if before.any fun earlier => earlier.name == stored.name then
            some (.overlappingVariables stored.name stored.name)
          else overlap? (before ++ [stored]) rest

theorem nodup_of_overlap?_eq_none {before rest : List StorageVariable}
    (names : (before.map StorageVariable.name).Nodup)
    (positions : (before.map StorageVariable.position).Nodup)
    (h : overlap? before rest = none) :
    ((before ++ rest).map StorageVariable.name).Nodup ∧
      ((before ++ rest).map StorageVariable.position).Nodup := by
  induction rest generalizing before with
  | nil => simpa using ⟨names, positions⟩
  | cons stored rest ih =>
      simp only [overlap?] at h
      split at h
      · simp at h
      · next distinctPosition =>
          split at h
          · simp at h
          · next distinctName =>
              have step := @ih (before ++ [stored]) ?_ ?_ h
              · simpa using step
              · simp only [List.map_append, List.nodup_append, names, true_and]
                simp only [List.any_eq_true, not_exists, not_and, beq_iff_eq] at distinctName
                simp only [List.map_cons, List.map_nil, List.nodup_cons, List.not_mem_nil,
                  not_false_eq_true, List.nodup_nil, and_self, List.mem_map, List.mem_singleton,
                  true_and]
                rintro _ ⟨earlier, member, rfl⟩ _ rfl same
                exact distinctName earlier member same
              · simp only [List.map_append, List.nodup_append, positions, true_and]
                simp only [List.find?_eq_none, beq_iff_eq] at distinctPosition
                simp only [List.map_cons, List.map_nil, List.nodup_cons, List.not_mem_nil,
                  not_false_eq_true, List.nodup_nil, and_self, List.mem_map, List.mem_singleton,
                  true_and]
                rintro _ ⟨earlier, member, rfl⟩ _ rfl same
                exact distinctPosition earlier member same

def ofLayout (contract : String) (layout : Layout) : Except StorageError Resolver :=
  match h : overlap? [] layout.declarations with
  | some error => .error error
  | none =>
      have nodup := nodup_of_overlap?_eq_none (by simp) (by simp) h
      .ok ⟨contract, layout, nodup.1, nodup.2⟩

def inSlot (resolver : Resolver) (slot : Word) : List StorageVariable :=
  resolver.layout.declarations.filter fun stored => stored.slot == slot

def resolve (resolver : Resolver) (slot : Word) : Except StorageError Spec.StorageItem :=
  match resolver.inSlot slot with
  | [] => .error (.unknownSlot slot)
  | [stored] =>
      if stored.offset ≠ 0 then .error (.packedSlot slot [stored.name])
      else
        match stored.type with
        | .mapping _ _ => .error (.mappingSlot slot stored.name)
        | .value type =>
            if type.isElementary then .ok ⟨resolver.contract, stored.name, type⟩
            else .error (.unsupportedSlotType stored.name type)
  | several =>
      let names := several.map StorageVariable.name
      .error (.packedSlot slot (names.mergeSort fun first second => first ≤ second))

def slotOf? (resolver : Resolver) (name : String) : Option Word :=
  (resolver.layout.get? name).map StorageVariable.slot

def resolvable (resolver : Resolver) : List (Word × Spec.StorageItem) :=
  resolver.layout.declarations.filterMap fun stored =>
    (resolver.resolve stored.slot).toOption.map fun item => (stored.slot, item)

end Resolver

end SpecRecovery
