import Mathlib.Data.List.Nodup
import SpecRecovery.Layout.Resolver
import SpecRecovery.Proofs.Result

namespace SpecRecovery.Resolver

open Spec

theorem mem_inSlot {resolver : Resolver} {slot : Word} {stored : StorageVariable} :
    stored ∈ resolver.inSlot slot ↔
      stored ∈ resolver.layout.declarations ∧ stored.slot = slot := by
  simp [inSlot]

-- What is resolved is declared, alone in its slot and from its first byte on.
theorem exists_of_resolve {resolver : Resolver} {slot : Word} {item : StorageItem}
    (h : resolver.resolve slot = .ok item) :
    ∃ stored, resolver.inSlot slot = [stored] ∧ stored.offset = 0 ∧
      stored.type = .value item.type ∧ item = ⟨resolver.contract, stored.name, item.type⟩ ∧
      item.type.isElementary := by
  unfold resolve at h
  split at h
  · exact nomatch h
  · next stored hslot =>
      split at h
      · exact nomatch h
      · next hoffset =>
          split at h
          · exact nomatch h
          · next type htype =>
              split at h
              · next helementary =>
                  obtain rfl := Except.ok.inj h
                  exact ⟨stored, hslot, not_not.mp hoffset, htype, rfl, helementary⟩
              · exact nomatch h
  · exact nomatch h

theorem contract_of_resolve {resolver : Resolver} {slot : Word} {item : StorageItem}
    (h : resolver.resolve slot = .ok item) : item.contract = resolver.contract := by
  obtain ⟨stored, _, _, _, hitem, _⟩ := exists_of_resolve h
  rw [hitem]

-- Names differ, so that the first variable of a name is the only one.
theorem slotOf?_of_mem (resolver : Resolver) {stored : StorageVariable}
    (h : stored ∈ resolver.layout.declarations) :
    resolver.slotOf? stored.name = some stored.slot := by
  unfold slotOf? Layout.get?
  cases hfind : resolver.layout.declarations.find? fun other => other.name == stored.name with
  | none =>
      have hself := List.find?_eq_none.mp hfind stored h
      simp at hself
  | some other =>
      have hname := List.find?_some hfind
      rw [beq_iff_eq] at hname
      have hmem := List.mem_of_find?_eq_some hfind
      rw [List.inj_on_of_nodup_map resolver.names_nodup hmem h hname]
      rfl

theorem slotOf?_eq_some_iff {resolver : Resolver} {name : String} {slot : Word} :
    resolver.slotOf? name = some slot ↔
      ∃ stored ∈ resolver.layout.declarations, stored.name = name ∧ stored.slot = slot := by
  constructor
  · intro h
    obtain ⟨stored, hfind, hslot⟩ := Option.map_eq_some_iff.mp h
    have hname := List.find?_some hfind
    exact ⟨stored, List.mem_of_find?_eq_some hfind, beq_iff_eq.mp hname, hslot⟩
  · rintro ⟨stored, hmem, rfl, rfl⟩
    exact resolver.slotOf?_of_mem hmem

theorem slotOf?_of_resolve {resolver : Resolver} {slot : Word} {item : StorageItem}
    (h : resolver.resolve slot = .ok item) : resolver.slotOf? item.name = some slot := by
  obtain ⟨stored, hslot, _, _, hitem, _⟩ := exists_of_resolve h
  have hmem : stored ∈ resolver.inSlot slot := by simp [hslot]
  obtain ⟨hdeclared, rfl⟩ := mem_inSlot.mp hmem
  rw [hitem]
  exact resolver.slotOf?_of_mem hdeclared

-- The name tells the slot and thereby all of the item.
theorem resolve_injective {resolver : Resolver} {slot other : Word} {item same : StorageItem}
    (h : resolver.resolve slot = .ok item) (hother : resolver.resolve other = .ok same)
    (hname : item.name = same.name) : slot = other := by
  have hslot := slotOf?_of_resolve h
  rw [hname, slotOf?_of_resolve hother] at hslot
  exact (Option.some.inj hslot).symm

theorem mem_resolvable_iff (resolver : Resolver) (slot : Word) (item : StorageItem) :
    (slot, item) ∈ resolver.resolvable ↔ resolver.resolve slot = .ok item := by
  unfold resolvable
  rw [List.mem_filterMap]
  constructor
  · rintro ⟨stored, _, hstored⟩
    obtain ⟨found, hfound, hentry⟩ := Option.map_eq_some_iff.mp hstored
    obtain ⟨rfl, rfl⟩ := Prod.mk.inj hentry
    exact toOption_eq_some.mp hfound
  · intro h
    obtain ⟨stored, hslot, _⟩ := exists_of_resolve h
    have hmem : stored ∈ resolver.inSlot slot := by simp [hslot]
    obtain ⟨hdeclared, rfl⟩ := mem_inSlot.mp hmem
    refine ⟨stored, hdeclared, Option.map_eq_some_iff.mpr ⟨item, ?_, rfl⟩⟩
    exact toOption_eq_some.mpr h

-- Declarations differ in their names, and so one declaration alone in its slot is the whole list.
theorem inSlot_eq_singleton_iff {resolver : Resolver} {slot : Word} {stored : StorageVariable} :
    resolver.inSlot slot = [stored] ↔
      ∀ other, other ∈ resolver.layout.declarations ∧ other.slot = slot ↔ other = stored := by
  have hnodup : (resolver.inSlot slot).Nodup := resolver.names_nodup.of_map.filter _
  constructor
  · intro h other
    rw [← mem_inSlot, h, List.mem_singleton]
  · intro h
    have hmem : ∀ other, other ∈ resolver.inSlot slot ↔ other ∈ [stored] := fun other => by
      rw [mem_inSlot, h, List.mem_singleton]
    exact List.perm_singleton.mp
      ((List.perm_ext_iff_of_nodup hnodup (List.nodup_singleton _)).mpr hmem)

-- A slot is resolved exactly if one variable lies in it, from the first byte on and with a value of
-- an elementary type.
theorem resolve_eq_ok_iff {resolver : Resolver} {slot : Word} {item : StorageItem} :
    resolver.resolve slot = .ok item ↔
      (∀ other, other ∈ resolver.layout.declarations ∧ other.slot = slot ↔
        other = .ofValue item.name slot item.type) ∧
      item.type.isElementary = true ∧ item.contract = resolver.contract := by
  rw [← inSlot_eq_singleton_iff]
  constructor
  · intro h
    obtain ⟨⟨name, place, offset, type⟩, hslot, hoffset, htype, hitem, helementary⟩ :=
      exists_of_resolve h
    have hmem := mem_inSlot.mp (hslot ▸ List.mem_singleton_self _)
    dsimp only at hoffset htype hmem
    obtain ⟨_, rfl⟩ := hmem
    subst hoffset htype
    refine ⟨?_, helementary, contract_of_resolve h⟩
    rw [hslot, hitem]
    rfl
  · rintro ⟨hslot, helementary, hcontract⟩
    rw [resolve, hslot]
    simp [StorageVariable.ofValue, helementary, ← hcontract]

-- The declaration that an entry of the resolvable variables stands for.
def declarationOf (entry : Word × StorageItem) : StorageVariable :=
  .ofValue entry.2.name entry.1 entry.2.type

-- The resolvable variables are listed as they are declared, with the others left out.
theorem resolvable_sublist (resolver : Resolver) :
    (resolver.resolvable.map declarationOf).Sublist resolver.layout.declarations := by
  have hkept : ∀ stored ∈ resolver.layout.declarations,
      ((resolver.resolve stored.slot).toOption.map fun item => (stored.slot, item)).map
          declarationOf =
        Option.guard (fun other => (resolver.resolve other.slot).toOption.isSome) stored := by
    intro stored hstored
    cases hresolve : resolver.resolve stored.slot with
    | error reason => simp [Option.guard, hresolve, Except.toOption]
    | ok item =>
        have hself := ((resolve_eq_ok_iff.mp hresolve).1 stored).mp ⟨hstored, rfl⟩
        simp [Option.guard, hresolve, Except.toOption, declarationOf, ← hself]
  rw [resolvable, List.map_filterMap, List.filterMap_congr hkept, List.filterMap_eq_filter]
  exact List.filter_sublist

-- Names of declared variables do not repeat, and so those of the resolvable ones do not.
theorem resolvable_names_nodup (resolver : Resolver) :
    (resolver.resolvable.map fun entry => entry.2.name).Nodup := by
  have hnames := resolver.resolvable_sublist.map StorageVariable.name
  rw [List.map_map] at hnames
  exact resolver.names_nodup.sublist hnames

-- The variables that stand for one storage slot each.
def Lists (resolver : Resolver) (item : StorageItem) : Prop :=
  ∃ slot, (slot, item) ∈ resolver.resolvable

theorem lists_iff {resolver : Resolver} {item : StorageItem} :
    resolver.Lists item ↔ ∃ slot, resolver.resolve slot = .ok item := by
  simp only [Lists, mem_resolvable_iff]

end SpecRecovery.Resolver
