import SpecRecovery.Proofs.Artifact.Parameter
import SpecRecovery.Proofs.Artifact.Termination

namespace SpecRecovery

-- The types that a stored declaration is made of.
def SlotType.types : SlotType → List AbiType
  | value type => [type]
  | mapping keys element => keys ++ [element]

theorem SlotType.types_underKey (key : AbiType) (type : SlotType) :
    (type.underKey key).types = key :: type.types := by
  cases type <;> rfl

namespace Contract

-- The types of arguments and of return values.
def calledTypes (contract : Contract) : List AbiType :=
  contract.constructor.arguments.map Argument.type ++
    contract.methods.flatMap fun method =>
      method.interface.arguments.map Argument.type ++ method.outputs

-- The types of stored values and of the keys of mappings.
def storedTypes (contract : Contract) : List AbiType :=
  contract.layout.declarations.flatMap fun stored => stored.type.types

end Contract

namespace Artifact

-- An enumeration, and how many bytes it is said to take.
def TypeDescription.Enumerates (description : TypeDescription) (bytes : Nat) : Prop :=
  (AbiType.parse description.label).toOption = none ∧
    hasMarker "contract " description.label = false ∧
    hasMarker "enum " description.label = true ∧
    Text.countOfDecimal? (twoTo 64) description.byteCount.toList = some bytes

-- The descriptions that make up the type of a name: those of the keys of all mappings that are
-- passed, and the one at the end.
inductive Storage.Describes (storage : Storage) : String → TypeDescription → Prop
  | plain {id : String} {description : TypeDescription}
      (hfound : storage.types.find? id = some description)
      (hplain : description.encoding ≠ "mapping") : Describes storage id description
  | key {id key : String} {mapping description : TypeDescription}
      (hfound : storage.types.find? id = some mapping) (hmapping : mapping.encoding = "mapping")
      (hkey : mapping.key = some key) (hdescribed : storage.types.find? key = some description) :
      Describes storage id description
  | values {id values : String} {mapping description : TypeDescription}
      (hfound : storage.types.find? id = some mapping) (hmapping : mapping.encoding = "mapping")
      (hvalues : mapping.value = some values) (hdescribed : Describes storage values description) :
      Describes storage id description

-- A description that the type of some stored variable is made of.
def Stores (artifact : Artifact) (description : TypeDescription) : Prop :=
  ∃ storage, artifact.storage = some storage ∧
    ∃ stored ∈ storage.declarations, storage.Describes stored.type description

theorem wellSized_of_abiType {parameter : Parameter} {type : AbiType}
    (h : parameter.abiType = .ok type) : type.isWellSized = true := by
  obtain ⟨text, hparse⟩ := exists_parse_of_abiType h
  exact (AbiType.spelledBy_of_parse hparse).sized

section Descriptions

variable {description : TypeDescription} {bytes : Nat} {type : AbiType}

theorem TypeDescription.Enumerates.abiType (h : description.Enumerates bytes) :
    description.abiType = .ok (.uint (bytes * 8 % twoTo 64)) := by
  obtain ⟨hparse, hcontract, henum, hcount⟩ := h
  unfold TypeDescription.abiType
  cases hresult : AbiType.parse description.label with
  | ok type => simp [hresult, Except.toOption] at hparse
  | error error =>
      simp only [hcontract, henum, hcount, Bool.false_eq_true, if_false, if_true]
      rfl

-- Only the width of an enumeration comes from a number that nothing bounds.
theorem TypeDescription.wellSized_or_enumerates (h : description.abiType = .ok type) :
    type.isWellSized = true ∨
      ∃ bytes, description.Enumerates bytes ∧ type = .uint (bytes * 8 % twoTo 64) := by
  unfold TypeDescription.abiType at h
  cases hparse : AbiType.parse description.label with
  | ok parsed =>
      rw [hparse] at h
      obtain rfl := Except.ok.inj h
      exact .inl (AbiType.spelledBy_of_parse hparse).sized
  | error error =>
      simp only [hparse] at h
      split at h
      · obtain rfl := Except.ok.inj h
        exact .inl rfl
      · next hcontract =>
          split at h
          · next henum =>
              split at h
              · next bytes hbytes =>
                  obtain rfl := Except.ok.inj h
                  refine .inr ⟨bytes, ⟨?_, ?_, henum, hbytes⟩, rfl⟩
                  · rw [hparse]
                    rfl
                  · simpa using hcontract
              · cases h
          · split at h
            · obtain rfl := Except.ok.inj h
              exact .inl rfl
            · cases h

theorem isWellSized_enumeration_iff :
    (AbiType.uint (bytes * 8 % twoTo 64)).isWellSized = true ↔
      1 ≤ bytes % twoTo 61 ∧ bytes % twoTo 61 ≤ 32 := by
  have hbits : twoTo 64 = 18446744073709551616 := by decide
  have hbytes : twoTo 61 = 2305843009213693952 := by decide
  simp only [AbiType.isWellSized, Word.sizeBits, Bool.and_eq_true, beq_iff_eq, decide_eq_true_iff,
    hbits, hbytes]
  omega

end Descriptions

section Storage

variable {storage : Storage} {id values : String} {key type : AbiType}

theorem Storage.storedType_eq_value (h : storage.storedType id = .ok (.value type)) :
    ∃ description, storage.types.find? id = some description ∧
      description.encoding ≠ "mapping" ∧ description.abiType = .ok type := by
  obtain ⟨description, hfound, h⟩ := bind_eq_ok.mp h
  refine ⟨description, description_eq_ok.mp hfound, ?_⟩
  split at h
  · next hplain =>
      obtain ⟨read, hread, h⟩ := bind_eq_ok.mp h
      cases h
      exact ⟨hplain, hread⟩
  · split at h
    · exact nomatch h
    · exact nomatch h
    · obtain ⟨_, _, h⟩ := bind_eq_ok.mp h
      obtain ⟨_, _, h⟩ := bind_eq_ok.mp h
      exact nomatch h

theorem Storage.storedType_eq_mapping (h : storage.storedType id = .ok (.mapping key values)) :
    ∃ mapping name description, storage.types.find? id = some mapping ∧
      mapping.encoding = "mapping" ∧ mapping.key = some name ∧ mapping.value = some values ∧
      storage.types.find? name = some description ∧ description.abiType = .ok key := by
  obtain ⟨mapping, hfound, h⟩ := bind_eq_ok.mp h
  split at h
  · obtain ⟨_, _, h⟩ := bind_eq_ok.mp h
    exact nomatch h
  · next hmapping =>
      split at h
      · exact nomatch h
      · exact nomatch h
      · next name below hname hbelow =>
          obtain ⟨description, hdescription, h⟩ := bind_eq_ok.mp h
          obtain ⟨read, hread, h⟩ := bind_eq_ok.mp h
          cases h
          exact ⟨mapping, name, description, description_eq_ok.mp hfound,
            not_not.mp hmapping, hname, hbelow, description_eq_ok.mp hdescription, hread⟩

theorem Storage.describes_iff_of_plain {found description : TypeDescription}
    (hfound : storage.types.find? id = some found) (hplain : found.encoding ≠ "mapping") :
    storage.Describes id description ↔ description = found := by
  constructor
  · intro h
    cases h with
    | plain hsame _ => exact Option.some.inj (hsame.symm.trans hfound)
    | key hsame hmapping =>
        exact absurd (Option.some.inj (hsame.symm.trans hfound) ▸ hmapping) hplain
    | values hsame hmapping =>
        exact absurd (Option.some.inj (hsame.symm.trans hfound) ▸ hmapping) hplain
  · rintro rfl
    exact .plain hfound hplain

theorem Storage.describes_iff_of_mapping {name : String}
    {mapping keyDescription description : TypeDescription}
    (hfound : storage.types.find? id = some mapping) (hmapping : mapping.encoding = "mapping")
    (hkey : mapping.key = some name) (hvalues : mapping.value = some values)
    (hdescribed : storage.types.find? name = some keyDescription) :
    storage.Describes id description ↔
      description = keyDescription ∨ storage.Describes values description := by
  constructor
  · intro h
    cases h with
    | plain hsame hplain =>
        exact absurd hmapping (Option.some.inj (hsame.symm.trans hfound) ▸ hplain)
    | key hsame _ hother hread =>
        obtain rfl := Option.some.inj (hsame.symm.trans hfound)
        obtain rfl := Option.some.inj (hother.symm.trans hkey)
        exact .inl (Option.some.inj (hread.symm.trans hdescribed))
    | values hsame _ hother hbelow =>
        obtain rfl := Option.some.inj (hsame.symm.trans hfound)
        obtain rfl := Option.some.inj (hother.symm.trans hvalues)
        exact .inr hbelow
  · rintro (rfl | hbelow)
    · exact .key hfound hmapping hkey hdescribed
    · exact .values hfound hmapping hvalues hbelow

theorem Storage.stepWith_eq_ok {below : String → Option (Except ArtifactError SlotType)}
    {slotType : SlotType} (h : storage.stepWith below id = some (.ok slotType)) :
    (∃ type, storage.storedType id = .ok (.value type) ∧ slotType = .value type) ∨
      ∃ key values inner, storage.storedType id = .ok (.mapping key values) ∧
        below values = some (.ok inner) ∧ slotType = inner.underKey key := by
  unfold stepWith at h
  cases hstored : storage.storedType id with
  | error reason =>
      rw [hstored] at h
      exact nomatch Option.some.inj h
  | ok stored =>
      rw [hstored] at h
      cases stored with
      | value type => exact .inl ⟨type, rfl, (Except.ok.inj (Option.some.inj h)).symm⟩
      | mapping key values =>
          obtain ⟨result, hresult, h⟩ := Option.map_eq_some_iff.mp h
          obtain ⟨inner, rfl, rfl⟩ := map_eq_ok.mp h
          exact .inr ⟨key, values, inner, rfl, hresult, rfl⟩

-- What a type is made of are the types of its descriptions, and nothing else. A mapping adds its
-- key to what is below it.
theorem Storage.mem_types_iff {slotType : SlotType} {steps : Nat}
    (h : storage.slotTypeWithin steps id = some (.ok slotType)) :
    type ∈ slotType.types ↔
      ∃ description, storage.Describes id description ∧ description.abiType = .ok type := by
  induction steps generalizing id slotType with
  | zero => exact nomatch h
  | succ steps ih =>
      rcases stepWith_eq_ok h with ⟨plain, hstored, rfl⟩ |
        ⟨key, values, inner, hstored, hbelow, rfl⟩
      · obtain ⟨found, hfound, hplain, hread⟩ := storedType_eq_value hstored
        simp only [describes_iff_of_plain hfound hplain, exists_eq_left, hread, Except.ok.injEq,
          SlotType.types, List.mem_singleton]
        exact eq_comm
      · obtain ⟨mapping, name, keyDescription, hfound, hmapping, hkey, hvalues, hdescribed,
          hread⟩ := storedType_eq_mapping hstored
        rw [SlotType.types_underKey, List.mem_cons, ih hbelow]
        simp only [describes_iff_of_mapping hfound hmapping hkey hvalues hdescribed, or_and_right,
          exists_or, exists_eq_left, hread, Except.ok.injEq]
        exact or_congr_left eq_comm

theorem Storage.slotType_of_storageVariable {stored : Variable} {located : StorageVariable}
    (h : (storage.storageVariable stored).run = some (.ok located)) :
    storage.slotType stored.type = some (.ok located.type) := by
  unfold storageVariable at h
  split at h
  · exact nomatch h
  · obtain ⟨type, htype, h⟩ := run_bind_eq_ok.mp h
    cases h
    exact htype

theorem Storage.forall₂_of_layout {layout : Layout} (h : storage.layout.run = some (.ok layout)) :
    List.Forall₂ (fun stored located =>
        (storage.storageVariable stored).run = some (.ok located))
      storage.declarations layout.declarations := by
  obtain ⟨located, hlocated, h⟩ := run_bind_eq_ok.mp h
  cases h
  exact run_mapM_eq_ok.mp hlocated

theorem Storage.mem_storedTypes_iff {layout : Layout}
    (h : storage.layout.run = some (.ok layout)) :
    type ∈ layout.declarations.flatMap (fun stored => stored.type.types) ↔
      ∃ stored ∈ storage.declarations, ∃ description,
        storage.Describes stored.type description ∧ description.abiType = .ok type := by
  have hpairs := exists_of_forall₂ (forall₂_of_layout h)
  rw [List.mem_flatMap]
  constructor
  · rintro ⟨located, hlocated, htype⟩
    obtain ⟨stored, hstored, hread⟩ := hpairs.2 located hlocated
    exact ⟨stored, hstored, (mem_types_iff (slotType_of_storageVariable hread)).mp htype⟩
  · rintro ⟨stored, hstored, hdescribed⟩
    obtain ⟨located, hlocated, hread⟩ := hpairs.1 stored hstored
    exact ⟨located, hlocated, (mem_types_iff (slotType_of_storageVariable hread)).mpr hdescribed⟩

end Storage

section Entries

variable {parameters : List Parameter} {entry : Entry} {before after : Contract}

theorem wellSized_of_arguments {arguments : List Argument}
    (h : Artifact.arguments parameters = .ok arguments) :
    ∀ type ∈ arguments.map Argument.type, type.isWellSized = true := by
  rw [List.forall_mem_map]
  intro argument hargument
  obtain ⟨parameter, _, hread⟩ := (exists_of_forall₂ (mapM_eq_ok.mp h)).2 argument hargument
  obtain ⟨type, htype, hread⟩ := bind_eq_ok.mp hread
  cases hread
  exact wellSized_of_abiType htype

theorem wellSized_of_abiTypes {types : List AbiType} (h : abiTypes parameters = .ok types) :
    ∀ type ∈ types, type.isWellSized = true := by
  rw [abiTypes_eq_mapM, mapM_eq_ok] at h
  intro type htype
  obtain ⟨parameter, _, hread⟩ := (exists_of_forall₂ h).2 type htype
  exact wellSized_of_abiType hread

-- An entry takes the place of a constructor, adds a method, or is passed over.
theorem addEntry_eq_ok (h : addEntry before entry = .ok after) :
    (∃ inputs, arguments entry.inputs = .ok inputs ∧
      after = { before with constructor := .ofConstructor inputs }) ∨
    (∃ inputs outputs, arguments entry.inputs = .ok inputs ∧ abiTypes entry.outputs = .ok outputs ∧
      after = { before with methods := before.methods ++ [⟨⟨entry.name, inputs⟩, outputs⟩] }) ∨
    after = before := by
  unfold addEntry at h
  split at h
  · obtain ⟨inputs, hinputs, h⟩ := bind_eq_ok.mp h
    exact .inl ⟨inputs, hinputs, (Except.ok.inj h).symm⟩
  · obtain ⟨inputs, hinputs, h⟩ := bind_eq_ok.mp h
    obtain ⟨outputs, houtputs, h⟩ := bind_eq_ok.mp h
    exact .inr (.inl ⟨inputs, outputs, hinputs, houtputs, (Except.ok.inj h).symm⟩)
  · exact .inr (.inr (Except.ok.inj h).symm)

theorem wellSized_addEntry (h : addEntry before entry = .ok after)
    (hbefore : ∀ type ∈ before.calledTypes, type.isWellSized = true) :
    ∀ type ∈ after.calledTypes, type.isWellSized = true := by
  unfold Contract.calledTypes at hbefore ⊢
  rw [List.forall_mem_append] at hbefore
  obtain ⟨hconstructor, hmethods⟩ := hbefore
  rcases addEntry_eq_ok h with ⟨inputs, hinputs, rfl⟩ |
    ⟨inputs, outputs, hinputs, houtputs, rfl⟩ | rfl
  · exact List.forall_mem_append.mpr ⟨wellSized_of_arguments hinputs, hmethods⟩
  · rw [List.flatMap_append, List.flatMap_singleton, List.forall_mem_append,
      List.forall_mem_append, List.forall_mem_append]
    exact ⟨hconstructor, hmethods, wellSized_of_arguments hinputs, wellSized_of_abiTypes houtputs⟩
  · exact List.forall_mem_append.mpr ⟨hconstructor, hmethods⟩

theorem layout_of_addEntry (h : addEntry before entry = .ok after) :
    after.layout = before.layout := by
  rcases addEntry_eq_ok h with ⟨_, _, rfl⟩ | ⟨_, _, _, _, rfl⟩ | rfl <;> rfl

end Entries

section Contracts

variable {artifact : Artifact} {contract callable : Contract} {type : AbiType}

theorem wellSized_callable (h : artifact.callable = .ok callable) :
    ∀ type ∈ callable.calledTypes, type.isWellSized = true := by
  obtain ⟨creationCode, _, h⟩ := bind_eq_ok.mp h
  obtain ⟨runtimeCode, _, h⟩ := bind_eq_ok.mp h
  exact of_foldlM_eq_ok (fun _ _ _ => wellSized_addEntry) h (List.forall_mem_nil _)

theorem layout_of_callable (h : artifact.callable = .ok callable) : callable.layout = .empty := by
  obtain ⟨creationCode, _, h⟩ := bind_eq_ok.mp h
  obtain ⟨runtimeCode, _, h⟩ := bind_eq_ok.mp h
  refine of_foldlM_eq_ok (motive := fun after => after.layout = .empty) ?_ h rfl
  exact fun _ before after hadd hbefore => (layout_of_addEntry hadd).trans hbefore

theorem wellSized_calledTypes (h : artifact.contract.run = some (.ok contract)) :
    ∀ type ∈ contract.calledTypes, type.isWellSized = true := by
  obtain ⟨callable, hcallable, h⟩ := run_liftM_bind_eq_ok.mp h
  have hcalled := wellSized_callable hcallable
  split at h
  · obtain ⟨layout, _, h⟩ := run_bind_eq_ok.mp h
    cases h
    exact hcalled
  · cases h
    exact hcalled

theorem mem_storedTypes_iff (h : artifact.contract.run = some (.ok contract)) :
    type ∈ contract.storedTypes ↔
      ∃ description, artifact.Stores description ∧ description.abiType = .ok type := by
  obtain ⟨callable, hcallable, h⟩ := run_liftM_bind_eq_ok.mp h
  unfold Stores
  split at h
  · next storage hstorage =>
      obtain ⟨layout, hlayout, h⟩ := run_bind_eq_ok.mp h
      cases h
      refine (Storage.mem_storedTypes_iff hlayout).trans ?_
      simp only [hstorage, Option.some.injEq, exists_eq_left']
      constructor
      · rintro ⟨stored, hstored, description, hdescribed, hread⟩
        exact ⟨description, ⟨stored, hstored, hdescribed⟩, hread⟩
      · rintro ⟨description, ⟨stored, hstored, hdescribed⟩, hread⟩
        exact ⟨stored, hstored, description, hdescribed, hread⟩
  · next hnone =>
      cases h
      have hempty : contract.storedTypes = [] := by
        rw [Contract.storedTypes, layout_of_callable hcallable]
        rfl
      simp [hempty, hnone]

end Contracts

-- What is called has types within their bounds. What is stored has too, apart from the enumerations
-- that are said to take no byte or more than a word, modulo the width of a count.
theorem types_wellSized_unless_enumerated (text : String) (contract : Contract)
    (h : (Contract.ofArtifact text).run = some (.ok contract)) :
    (∀ type ∈ contract.calledTypes, type.isWellSized = true) ∧
      ∃ artifact, parse text = .ok artifact ∧
        ∀ type, type ∈ contract.storedTypes ∧ type.isWellSized = false ↔
          ∃ description bytes, artifact.Stores description ∧ description.Enumerates bytes ∧
            type = .uint (bytes * 8 % twoTo 64) ∧
            ¬(1 ≤ bytes % twoTo 61 ∧ bytes % twoTo 61 ≤ 32) := by
  obtain ⟨artifact, hparse, hcontract⟩ := run_liftM_bind_eq_ok.mp h
  refine ⟨wellSized_calledTypes hcontract, artifact, hparse, fun type => ?_⟩
  rw [mem_storedTypes_iff hcontract]
  constructor
  · rintro ⟨⟨description, hstores, hread⟩, hill⟩
    rcases description.wellSized_or_enumerates hread with hwell | ⟨bytes, henumerates, rfl⟩
    · exact absurd hwell (by simp [hill])
    · refine ⟨description, bytes, hstores, henumerates, rfl, ?_⟩
      rw [← isWellSized_enumeration_iff, hill]
      exact Bool.false_ne_true
  · rintro ⟨description, bytes, hstores, henumerates, rfl, hbytes⟩
    refine ⟨⟨description, hstores, henumerates.abiType⟩, ?_⟩
    rw [← isWellSized_enumeration_iff] at hbytes
    exact Bool.eq_false_iff.mpr hbytes

-- A mapping from an enumeration of one byte to one of 33 bytes.
def paletteText : String := ofLines
  ["\x7b\"abi\":[\x7b\"type\":\"function\",\"name\":\"mix\",",
    "\"inputs\":[\x7b\"name\":\"m\",\"type\":\"uint8\"\x7d]\x7d],",
    "\"bytecode\":\x7b\"object\":\"\"\x7d,",
    "\"deployedBytecode\":\x7b\"object\":\"\"\x7d,",
    "\"storageLayout\":\x7b\"storage\":",
    "[\x7b\"label\":\"hues\",\"slot\":\"0\",",
    "\"offset\":0,\"type\":\"t_hues\"\x7d],",
    "\"types\":\x7b\"t_hues\":\x7b\"encoding\":\"mapping\",",
    "\"label\":\"\",\"key\":\"t_mode\",\"value\":\"t_hue\",",
    "\"numberOfBytes\":\"32\"\x7d,",
    "\"t_mode\":\x7b\"encoding\":\"inplace\",",
    "\"label\":\"enum Mode\",\"numberOfBytes\":\"1\"\x7d,",
    "\"t_hue\":\x7b\"encoding\":\"inplace\",",
    "\"label\":\"enum Hue\",\"numberOfBytes\":\"33\"\x7d\x7d\x7d\x7d"]

def palette : Storage :=
  ⟨[⟨"hues", "0", 0, "t_hues"⟩],
    Table.ofList
      [("t_hues", ⟨"mapping", "", some "t_mode", some "t_hue", "32"⟩),
        ("t_mode", ⟨"inplace", "enum Mode", none, none, "1"⟩),
        ("t_hue", ⟨"inplace", "enum Hue", none, none, "33"⟩)]⟩

def paletteMethod : Method := ⟨⟨"mix", [⟨"m", .uint 8⟩]⟩, []⟩

def paletteContract : Contract :=
  ⟨"", [], [], .ofConstructor [], [paletteMethod],
    ⟨[⟨"hues", 0, 0, .mapping [.uint 8] (.uint 264)⟩]⟩⟩

theorem layout_palette : palette.layout.run = some (.ok paletteContract.layout) := by
  have htype : palette.slotType "t_hues" = some (.ok (.mapping [.uint 8] (.uint 264))) := by
    decide +kernel
  have hread : (palette.storageVariable ⟨"hues", "0", 0, "t_hues"⟩).run =
      some (.ok ⟨"hues", 0, 0, .mapping [.uint 8] (.uint 264)⟩) :=
    run_bind_eq_ok.mpr ⟨_, htype, rfl⟩
  exact run_bind_eq_ok.mpr ⟨_, run_mapM_eq_ok.mpr (.cons hread .nil), rfl⟩

theorem ofArtifact_paletteText :
    (Contract.ofArtifact paletteText).run = some (.ok paletteContract) := by
  have hread : ((parse paletteText).toOption.map fun artifact =>
      (artifact.callable.toOption, artifact.storage)) =
        some (some { paletteContract with layout := .empty }, some palette) := by
    rw [parse, Json.readBounded?, Json.read?, paletteText, ofLines, String.toList_ofList]
    decide +kernel
  obtain ⟨artifact, hparse, hparts⟩ := Option.map_eq_some_iff.mp hread
  obtain ⟨hcallable, hstorage⟩ := Prod.mk.inj hparts
  refine run_liftM_bind_eq_ok.mpr ⟨artifact, toOption_eq_some.mp hparse, ?_⟩
  refine run_liftM_bind_eq_ok.mpr ⟨_, toOption_eq_some.mp hcallable, ?_⟩
  rw [hstorage]
  exact run_bind_eq_ok.mpr ⟨_, layout_palette, rfl⟩

-- The values of the mapping are integers of 264 bits, which no word holds.
theorem palette_hues_oversized :
    (Contract.ofArtifact paletteText).run = some (.ok paletteContract) ∧
      ∃ type ∈ paletteContract.storedTypes, type.isWellSized = false :=
  ⟨ofArtifact_paletteText, .uint 264, by decide, by decide⟩

theorem types_wellSized_unless_enumerated_palette :
    (Contract.ofArtifact paletteText).run = some (.ok paletteContract) ∧
      (∀ type ∈ paletteContract.calledTypes, type.isWellSized = true) ∧
      ∃ description : TypeDescription, ∃ bytes, description.Enumerates bytes ∧
        AbiType.uint 264 = .uint (bytes * 8 % twoTo 64) := by
  obtain ⟨hcalled, artifact, _, hstored⟩ :=
    types_wellSized_unless_enumerated paletteText paletteContract ofArtifact_paletteText
  obtain ⟨description, bytes, _, henumerates, hwidth, _⟩ :=
    (hstored (.uint 264)).mp ⟨by decide, by decide⟩
  exact ⟨ofArtifact_paletteText, hcalled, description, bytes, henumerates, hwidth⟩

end Artifact

end SpecRecovery
