import SpecRecovery.Proofs.Layout.Resolution

namespace SpecRecovery.Resolver

open Spec

-- Whatever is declared first, two variables of one position or of one name are noticed.
theorem overlap?_eq_none_of_nodup {before rest : List StorageVariable}
    (names : ((before ++ rest).map StorageVariable.name).Nodup)
    (positions : ((before ++ rest).map StorageVariable.position).Nodup) :
    overlap? before rest = none := by
  induction rest generalizing before with
  | nil => rfl
  | cons stored rest ih =>
      have hapart {κ : Type} {key : StorageVariable → κ}
          (hnodup : ((before ++ stored :: rest).map key).Nodup) :
          ∀ earlier ∈ before, key earlier ≠ key stored := by
        rw [List.map_append, List.map_cons] at hnodup
        intro earlier hearlier
        exact (List.nodup_append.mp hnodup).2.2 _ (List.mem_map_of_mem hearlier) _
          List.mem_cons_self
      have hposition : (before.find? fun earlier => earlier.position == stored.position) = none :=
        List.find?_eq_none.mpr fun earlier hearlier heq =>
          hapart positions earlier hearlier (beq_iff_eq.mp heq)
      have hname : ¬(before.any fun earlier => earlier.name == stored.name) = true := by
        rw [List.any_eq_true]
        rintro ⟨earlier, hearlier, heq⟩
        exact hapart names earlier hearlier (beq_iff_eq.mp heq)
      rw [overlap?, hposition]
      dsimp only
      rw [if_neg hname]
      exact ih (by rwa [List.append_assoc]) (by rwa [List.append_assoc])

theorem ofLayout_eq_ok {contract : String} {layout : Layout} {resolver : Resolver}
    (h : ofLayout contract layout = .ok resolver) :
    resolver.contract = contract ∧ resolver.layout = layout := by
  unfold ofLayout at h
  split at h
  · exact nomatch h
  · obtain rfl := Except.ok.inj h
    exact ⟨rfl, rfl⟩

theorem exists_ofLayout_iff {contract : String} {layout : Layout} :
    (∃ resolver, ofLayout contract layout = .ok resolver) ↔
      (layout.declarations.map StorageVariable.name).Nodup ∧
        (layout.declarations.map StorageVariable.position).Nodup := by
  constructor
  · rintro ⟨resolver, h⟩
    obtain ⟨_, rfl⟩ := ofLayout_eq_ok h
    exact ⟨resolver.names_nodup, resolver.positions_nodup⟩
  · rintro ⟨names, positions⟩
    have hnone : overlap? [] layout.declarations = none := overlap?_eq_none_of_nodup names positions
    unfold ofLayout
    split
    · next h => exact nomatch hnone.symm.trans h
    · exact ⟨_, rfl⟩

-- A slot resolves to the variable that it holds alone, and the name of every variable leads back to
-- its slot. What can be resolved is listed once, in the order of declaration.
structure Inverts (resolver : Resolver) (contract : String) (layout : Layout) : Prop where
  resolved : ∀ slot item, resolver.resolve slot = .ok item ↔
    (∀ other, other ∈ layout.declarations ∧ other.slot = slot ↔
      other = .ofValue item.name slot item.type) ∧
    item.type.isElementary = true ∧ item.contract = contract
  named : ∀ name slot, resolver.slotOf? name = some slot ↔
    ∃ stored ∈ layout.declarations, stored.name = name ∧ stored.slot = slot
  found : ∀ slot item, resolver.resolve slot = .ok item → resolver.slotOf? item.name = some slot
  listed : ∀ slot item, (slot, item) ∈ resolver.resolvable ↔ resolver.resolve slot = .ok item
  once : resolver.resolvable.Nodup
  ordered : (resolver.resolvable.map declarationOf).Sublist layout.declarations

-- A layout has a resolver exactly if names and positions of its variables differ, and the resolver
-- inverts the layout.
theorem resolver_inverts_layout (contract : String) (layout : Layout) :
    ((∃ resolver, ofLayout contract layout = .ok resolver) ↔
      (layout.declarations.map StorageVariable.name).Nodup ∧
        (layout.declarations.map StorageVariable.position).Nodup) ∧
    ∀ resolver, ofLayout contract layout = .ok resolver → resolver.Inverts contract layout := by
  refine ⟨exists_ofLayout_iff, fun resolver h => ?_⟩
  obtain ⟨rfl, rfl⟩ := ofLayout_eq_ok h
  exact {
    resolved := fun _ _ => resolve_eq_ok_iff
    named := fun _ _ => slotOf?_eq_some_iff
    found := fun _ _ => slotOf?_of_resolve
    listed := resolver.mem_resolvable_iff
    once := resolver.resolvable_names_nodup.of_map
    ordered := resolver.resolvable_sublist }

-- A slot of its own, two variables that share one, a mapping, a text and a variable that starts
-- late.
def cabinetLayout : Layout where
  declarations := [.ofValue "total" 0 .uint256, .ofValue "owner" 1 .address,
    ⟨"open", 1, 20, .value .bool⟩, ⟨"shares", 2, 0, .mapping [.address] .uint256⟩,
    .ofValue "label" 3 .string, ⟨"late", 4, 16, .value (.uint 128)⟩,
    .ofValue "drift" 5 (.int 8)]

theorem resolver_inverts_layout_cabinet :
    ∃ resolver, ofLayout "Cabinet" cabinetLayout = .ok resolver ∧
      resolver.Inverts "Cabinet" cabinetLayout ∧
      resolver.resolvable =
        [(0, ⟨"Cabinet", "total", .uint256⟩), (5, ⟨"Cabinet", "drift", .int 8⟩)] := by
  obtain ⟨hexists, hinverts⟩ := resolver_inverts_layout "Cabinet" cabinetLayout
  obtain ⟨resolver, hresolver⟩ := hexists.mpr (by decide)
  refine ⟨resolver, hresolver, hinverts resolver hresolver, ?_⟩
  have hlisted : ((ofLayout "Cabinet" cabinetLayout).toOption.map resolvable) =
      some [(0, ⟨"Cabinet", "total", .uint256⟩), (5, ⟨"Cabinet", "drift", .int 8⟩)] := by
    decide +kernel
  rw [hresolver] at hlisted
  exact Option.some.inj hlisted

end SpecRecovery.Resolver
