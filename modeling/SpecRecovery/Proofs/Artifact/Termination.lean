import Mathlib.Data.List.Chain
import Mathlib.Data.List.Perm.Subperm
import Mathlib.Logic.Relation
import SpecRecovery.Artifact.Contract
import SpecRecovery.Proofs.Result
import SpecRecovery.Proofs.Table.Lookup

namespace SpecRecovery

namespace Artifact

namespace Storage

open Relation

-- A mapping is passed on the way to the type of its values.
def LeadsTo (storage : Storage) (id next : String) : Prop :=
  ∃ key, storage.storedType id = .ok (.mapping key next)

-- The way comes to a mapping that leads back to itself.
def Endless (storage : Storage) (id : String) : Prop :=
  ∃ passed, ReflTransGen storage.LeadsTo id passed ∧ TransGen storage.LeadsTo passed passed

variable {storage : Storage} {id next : String} {steps : Nat}
  {below above : String → Option (Except ArtifactError SlotType)}
  {result : Except ArtifactError SlotType}

theorem description_eq_ok {found : TypeDescription} :
    storage.description id = .ok found ↔ storage.types.find? id = some found := by
  unfold description
  cases storage.types.find? id with
  | none => exact ⟨nofun, nofun⟩
  | some other =>
      exact ⟨fun h => congrArg _ (Except.ok.inj h), fun h => congrArg _ (Option.some.inj h)⟩

theorem LeadsTo.mem_keys (h : storage.LeadsTo id next) : id ∈ storage.types.keys := by
  obtain ⟨key, h⟩ := h
  obtain ⟨found, hdescription, _⟩ := bind_eq_ok.mp h
  have hfound := description_eq_ok.mp hdescription
  exact List.mem_map_of_mem (Table.mem_entries_of_find?_eq_some _ hfound)

theorem stepWith_eq_none_iff :
    storage.stepWith below id = none ↔ ∃ next, storage.LeadsTo id next ∧ below next = none := by
  unfold stepWith LeadsTo
  cases storage.storedType id with
  | error reason => simp
  | ok stored => cases stored <;> simp

theorem stepWith_mono (hbelow : ∀ id result, below id = some result → above id = some result)
    (h : storage.stepWith below id = some result) : storage.stepWith above id = some result := by
  unfold stepWith at h ⊢
  cases hstored : storage.storedType id with
  | error reason => rwa [hstored] at h
  | ok stored =>
      cases stored with
      | value type => rwa [hstored] at h
      | mapping key values =>
          rw [hstored] at h
          obtain ⟨type, htype, h⟩ := Option.map_eq_some_iff.mp h
          exact Option.map_eq_some_iff.mpr ⟨type, hbelow values type htype, h⟩

-- What is found in time is found with more time, too.
theorem slotTypeWithin_mono {more : Nat} (hmore : steps ≤ more)
    (h : storage.slotTypeWithin steps id = some result) :
    storage.slotTypeWithin more id = some result := by
  induction steps generalizing more id result with
  | zero => exact nomatch h
  | succ steps ih =>
      obtain ⟨more, rfl⟩ := Nat.exists_eq_add_of_le' (Nat.zero_lt_of_lt hmore)
      exact stepWith_mono (fun _ _ => ih (Nat.le_of_succ_le_succ hmore)) h

theorem Endless.exists_leadsTo (h : storage.Endless id) :
    ∃ next, storage.LeadsTo id next ∧ storage.Endless next := by
  obtain ⟨passed, hpassed, hcycle⟩ := h
  rcases hpassed.cases_head with rfl | ⟨next, hnext, hrest⟩
  · obtain ⟨next, hnext, hback⟩ := TransGen.head'_iff.mp hcycle
    exact ⟨next, hnext, id, hback, hcycle⟩
  · exact ⟨next, hnext, passed, hrest, hcycle⟩

-- Below an answer the way ends, because each step finds one only below which there is another.
theorem not_endless_of_slotTypeWithin (h : storage.slotTypeWithin steps id = some result) :
    ¬storage.Endless id := by
  induction steps generalizing id result with
  | zero => exact nomatch h
  | succ steps ih =>
      intro hendless
      obtain ⟨next, hnext, hbelow⟩ := hendless.exists_leadsTo
      cases hanswer : storage.slotTypeWithin steps next with
      | none =>
          have hnone : storage.slotTypeWithin (steps + 1) id = none :=
            stepWith_eq_none_iff.mpr ⟨next, hnext, hanswer⟩
          exact nomatch hnone.symm.trans h
      | some type => exact ih hanswer hbelow

-- A search that is given up has passed a mapping with each of its steps.
theorem exists_passed_of_slotTypeWithin (h : storage.slotTypeWithin steps id = none) :
    ∃ passed : List String, passed.length = steps ∧ (∀ first ∈ passed.head?, first = id) ∧
      passed.IsChain storage.LeadsTo ∧ passed ⊆ storage.types.keys := by
  induction steps generalizing id with
  | zero => exact ⟨[], rfl, by simp, .nil, List.nil_subset _⟩
  | succ steps ih =>
      obtain ⟨next, hnext, hbelow⟩ := stepWith_eq_none_iff.mp h
      obtain ⟨passed, hlength, hfirst, hchain, hkeys⟩ := ih hbelow
      refine ⟨id :: passed, by rw [List.length_cons, hlength], by simp, ?_, ?_⟩
      · rw [List.isChain_cons]
        exact ⟨fun first hmem => hfirst first hmem ▸ hnext, hchain⟩
      · exact List.cons_subset.mpr ⟨hnext.mem_keys, hkeys⟩

-- With more steps than there are types, one of the mappings has been passed twice.
theorem endless_of_slotTypeWithin (hsteps : storage.types.entries.length < steps)
    (h : storage.slotTypeWithin steps id = none) : storage.Endless id := by
  obtain ⟨passed, hlength, hfirst, hchain, hkeys⟩ := exists_passed_of_slotTypeWithin h
  by_contra hends
  have hreached : ∀ name ∈ passed, ReflTransGen storage.LeadsTo id name := by
    cases passed with
    | nil => exact List.forall_mem_nil _
    | cons first rest =>
        obtain rfl := hfirst first rfl
        have hrest := (hchain.imp fun _ _ => TransGen.single).pairwise
        exact List.forall_mem_cons.mpr
          ⟨.refl, fun name hname => (List.rel_of_pairwise_cons hrest hname).to_reflTransGen⟩
  have hnodup : passed.Nodup := by
    refine (hchain.imp fun _ _ => TransGen.single).pairwise.imp_of_mem ?_
    rintro name _ hname _ hcycle rfl
    exact hends ⟨name, hreached name hname, hcycle⟩
  have hfew : passed.length ≤ storage.types.keys.length :=
    (List.subperm_of_subset hnodup hkeys).length_le
  rw [Table.keys, List.length_map] at hfew
  omega

theorem slotTypeWithin_eq_none_iff (hsteps : storage.types.entries.length < steps) :
    storage.slotTypeWithin steps id = none ↔ storage.Endless id := by
  constructor
  · exact endless_of_slotTypeWithin hsteps
  · intro h
    cases hfound : storage.slotTypeWithin steps id with
    | none => rfl
    | some result => exact absurd h (not_endless_of_slotTypeWithin hfound)

theorem slotType_eq_none_iff : storage.slotType id = none ↔ storage.Endless id :=
  slotTypeWithin_eq_none_iff (Nat.lt_succ_self _)

theorem slotTypeWithin_eq_slotType (hsteps : storage.types.entries.length < steps) :
    storage.slotTypeWithin steps id = storage.slotType id := by
  cases hfound : storage.slotType id with
  | none => exact (slotTypeWithin_eq_none_iff hsteps).mpr (slotType_eq_none_iff.mp hfound)
  | some result => exact slotTypeWithin_mono hsteps hfound

-- The slot is read before the type is looked for.
theorem storageVariable_eq_none_iff {stored : Variable} :
    (storage.storageVariable stored).run = none ↔
      (Text.countOfDecimal? (twoTo Word.sizeBits) stored.slot.toList).isSome ∧
        storage.Endless stored.type := by
  unfold storageVariable
  cases Text.countOfDecimal? (twoTo Word.sizeBits) stored.slot.toList with
  | none => exact ⟨nofun, fun h => nomatch h.1⟩
  | some slot =>
      rw [← slotType_eq_none_iff]
      constructor
      · intro h
        rcases run_bind_eq_none.mp h with h | ⟨_, _, hdone⟩
        · exact ⟨rfl, h⟩
        · exact nomatch hdone
      · exact fun h => run_bind_eq_none.mpr (.inl h.2)

-- The first variable that is not read to the end leads into a cycle of mappings.
def Hangs (storage : Storage) : Prop :=
  ∃ before stored after, storage.declarations = before ++ stored :: after ∧
    (∀ earlier ∈ before, ∃ located, (storage.storageVariable earlier).run = some (.ok located)) ∧
    (Text.countOfDecimal? (twoTo Word.sizeBits) stored.slot.toList).isSome ∧
    storage.Endless stored.type

theorem layout_eq_none_iff : storage.layout.run = none ↔ storage.Hangs := by
  rw [layout, run_bind_eq_none, run_mapM_eq_none]
  simp only [storageVariable_eq_none_iff]
  refine or_iff_left ?_
  rintro ⟨_, _, hdone⟩
  exact nomatch hdone

end Storage

theorem contract_eq_none_iff {artifact : Artifact} :
    artifact.contract.run = none ↔
      (∃ callable, artifact.callable = .ok callable) ∧
        ∃ storage, artifact.storage = some storage ∧ storage.Hangs := by
  rw [contract, run_liftM_bind_eq_none, ← exists_and_right]
  refine exists_congr fun callable => and_congr_right fun _ => ?_
  cases artifact.storage with
  | none => exact ⟨nofun, fun ⟨_, h, _⟩ => nomatch h⟩
  | some storage =>
      simp only [Option.some.injEq, exists_eq_left', ← Storage.layout_eq_none_iff]
      rw [run_bind_eq_none]
      refine or_iff_left ?_
      rintro ⟨_, _, hdone⟩
      exact nomatch hdone

end Artifact

theorem Contract.ofArtifact_eq_none_iff {text : String} :
    (ofArtifact text).run = none ↔
      ∃ artifact, Artifact.parse text = .ok artifact ∧
        (∃ callable, artifact.callable = .ok callable) ∧
        ∃ storage, artifact.storage = some storage ∧ storage.Hangs := by
  rw [ofArtifact, run_liftM_bind_eq_none]
  simp only [Artifact.contract_eq_none_iff]

namespace Artifact

-- With more steps than there are types, the search for a type ends with a layout or an error. Only
-- where mappings lead back to themselves it goes on whatever the number of steps, and a layout is
-- missing exactly if one of the variables leads there.
theorem layout_settled_unless_circular (storage : Storage) :
    (∀ id steps, storage.types.entries.length < steps →
      storage.slotTypeWithin steps id = storage.slotType id) ∧
    (∀ id, (∃ result, storage.slotType id = some result) ↔ ¬storage.Endless id) ∧
    ((∃ result, storage.layout.run = some result) ↔ ¬storage.Hangs) := by
  refine ⟨fun id steps hsteps => Storage.slotTypeWithin_eq_slotType hsteps, fun id => ?_, ?_⟩
  · rw [← Storage.slotType_eq_none_iff, ← Option.isSome_iff_exists, Option.isSome_iff_ne_none]
  · rw [← Storage.layout_eq_none_iff, ← Option.isSome_iff_exists, Option.isSome_iff_ne_none]

-- The text of an artifact, line by line.
def ofLines (lines : List String) : String := String.ofList (lines.flatMap String.toList)

-- The values of the mapping are described as the mapping itself.
def treeText : String := ofLines
  ["\x7b\"abi\":[],",
    "\"bytecode\":\x7b\"object\":\"\"\x7d,",
    "\"deployedBytecode\":\x7b\"object\":\"\"\x7d,",
    "\"storageLayout\":\x7b\"storage\":",
    "[\x7b\"label\":\"root\",\"slot\":\"0\",",
    "\"offset\":0,\"type\":\"t_tree\"\x7d],",
    "\"types\":\x7b\"t_tree\":\x7b\"encoding\":\"mapping\",",
    "\"label\":\"mapping(() => tree)\",",
    "\"key\":\"t_unit\",\"value\":\"t_tree\",",
    "\"numberOfBytes\":\"32\"\x7d,",
    "\"t_unit\":\x7b\"encoding\":\"inplace\",",
    "\"label\":\"()\",\"numberOfBytes\":\"32\"\x7d\x7d\x7d\x7d"]

def tree : Storage :=
  ⟨[⟨"root", "0", 0, "t_tree"⟩],
    Table.ofList
      [("t_tree", ⟨"mapping", "mapping(() => tree)", some "t_unit", some "t_tree", "32"⟩),
        ("t_unit", ⟨"inplace", "()", none, none, "32"⟩)]⟩

theorem endless_tree : tree.Endless "t_tree" := by
  have hitself : tree.LeadsTo "t_tree" "t_tree" := ⟨.tuple [], by decide +kernel⟩
  exact ⟨"t_tree", .refl, .single hitself⟩

theorem hangs_tree : tree.Hangs :=
  ⟨[], _, [], rfl, List.forall_mem_nil _, by decide +kernel, endless_tree⟩

-- No number of steps is enough for the mapping, and the artifact is read for ever.
theorem tree_layout_unsettled :
    (∀ steps, tree.slotTypeWithin steps "t_tree" = none) ∧ tree.layout.run = none ∧
      (Contract.ofArtifact treeText).run = none := by
  refine ⟨fun steps => ?_, Storage.layout_eq_none_iff.mpr hangs_tree, ?_⟩
  · cases hfound : tree.slotTypeWithin steps "t_tree" with
    | none => rfl
    | some result => exact absurd endless_tree (Storage.not_endless_of_slotTypeWithin hfound)
  · have hread : ((parse treeText).toOption.map fun artifact =>
        (artifact.callable.toOption.isSome, artifact.storage)) = some (true, some tree) := by
      rw [parse, Json.readBounded?, Json.read?, treeText, ofLines, String.toList_ofList]
      decide +kernel
    obtain ⟨artifact, hparse, hparts⟩ := Option.map_eq_some_iff.mp hread
    obtain ⟨hcallable, hstorage⟩ := Prod.mk.inj hparts
    obtain ⟨callable, hcallable⟩ := Option.isSome_iff_exists.mp hcallable
    exact Contract.ofArtifact_eq_none_iff.mpr ⟨artifact, toOption_eq_some.mp hparse,
      ⟨callable, toOption_eq_some.mp hcallable⟩, tree, hstorage, hangs_tree⟩

-- Two mappings within each other.
def allowances : Storage :=
  ⟨[⟨"allowances", "1", 0, "t_nested"⟩],
    Table.ofList
      [("t_nested", ⟨"mapping", "mapping(address => mapping(address => uint256))",
          some "t_address", some "t_inner", "32"⟩),
        ("t_inner", ⟨"mapping", "mapping(address => uint256)", some "t_address",
          some "t_uint256", "32"⟩),
        ("t_address", ⟨"inplace", "address", none, none, "20"⟩),
        ("t_uint256", ⟨"inplace", "uint256", none, none, "32"⟩)]⟩

theorem layout_settled_unless_circular_allowances :
    allowances.types.entries.length < 5 ∧
      allowances.slotType "t_nested" =
        some (.ok (.mapping [.address, .address] .uint256)) ∧
      ¬allowances.Endless "t_nested" := by
  obtain ⟨hwithin, hsettled, _⟩ := layout_settled_unless_circular allowances
  have htype : allowances.slotType "t_nested" =
      some (.ok (.mapping [.address, .address] .uint256)) := by
    rw [← hwithin "t_nested" 5 (by decide +kernel)]
    decide +kernel
  exact ⟨by decide +kernel, htype, (hsettled "t_nested").mp ⟨_, htype⟩⟩

end Artifact

end SpecRecovery
