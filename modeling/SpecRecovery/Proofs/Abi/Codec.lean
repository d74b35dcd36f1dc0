import SpecRecovery.Contract
import SpecRecovery.Layout.Basic
import SpecRecovery.Proofs.Json.Decoding
import SpecRecovery.Proofs.Text.Hex

namespace SpecRecovery

theorem Word.ofJson?_toJson (word : Word) : Word.ofJson? word.toJson = some word := by
  have hdigits := Text.numberOfHex?_hexDigits (show 0 < 64 by decide) word.isLt
  have hlimit : word.toNat < twoTo Word.sizeBits := word.isLt
  simp [Word.ofJson?, Word.toJson, Json.string?, Word.ofMarkedHex?, hdigits, hlimit]

namespace Selector

theorem dropMarkers_of_not_mem {digits : List Char} (h : 'x' ∉ digits) :
    dropMarkers digits = digits := by
  unfold dropMarkers
  split
  · exact absurd (by simp) h
  · rfl

theorem parse?_text (selector : Selector) : parse? selector.text = some selector := by
  have hmarker : 'x' ∉ Text.hexDigits 8 selector.code.toNat := fun hmem =>
    absurd (Text.hexValue?_of_mem_hexDigits _ hmem) (by decide)
  have hbound : selector.code.toNat < 256 ^ 4 := selector.code.isLt
  obtain ⟨bytes, hbytes, hlength, hnumeral⟩ := Text.exists_bytesOfHex?_hexDigits hbound
  have hdigits : dropMarkers selector.text.toList = Text.hexDigits 8 selector.code.toNat := by
    rw [text, String.toList_ofList, dropMarkers, dropMarkers_of_not_mem hmarker]
  have hcode : (Word.ofBytes bytes).setWidth 32 = selector.code := by
    have hvalue : Word.ofBytes bytes = BitVec.ofNat 256 selector.code.toNat := hnumeral ▸ rfl
    have hcode := selector.code.isLt
    apply BitVec.eq_of_toNat_eq
    rw [hvalue, BitVec.toNat_setWidth, BitVec.toNat_ofNat]
    omega
  rw [parse?, hdigits, hbytes]
  simp [hlength, hcode]

theorem ofJson?_toJson (selector : Selector) : ofJson? selector.toJson = some selector := by
  rw [ofJson?, toJson, Json.string?, Option.bind_eq_bind, Option.bind_some, parse?_text]

end Selector

namespace AbiType

-- Whether 64 bits hold every width and length in a type.
mutual

def countsFit : AbiType → Bool
  | uint count | int count | bytes count => count < twoTo 64
  | array _ element | dynArray element => countsFit element
  | tuple elements => allCountsFit elements
  | _ => true

def allCountsFit : List AbiType → Bool
  | [] => true
  | element :: rest => countsFit element && allCountsFit rest

end

theorem decode_array (depth : Nat) (size element : Json) :
    decode (depth + 1) (.alternative "array" [("size", size), ("type", element)]) = do
      return array (← Word.ofJson? size) (← decode depth element) :=
  rfl

-- A reader with enough depth reads back what was written.
mutual

theorem decode_toJson : (type : AbiType) → type.countsFit = true → {depth : Nat} →
    type.toJson.depth ≤ depth → decode depth type.toJson = some type
  | address, _, depth, _ | bool, _, depth, _ | dynBytes, _, depth, _ | string, _, depth, _
  | function, _, depth, _ => by cases depth <;> rfl
  | uint size, hcounts, _, hdepth => by
      obtain ⟨depth, rfl, _⟩ := Json.exists_of_depth_alternative hdepth
      change (Json.count size).count?.bind (fun count => some (uint count)) = _
      rw [Json.count?_count (of_decide_eq_true hcounts)]
      rfl
  | int size, hcounts, _, hdepth => by
      obtain ⟨depth, rfl, _⟩ := Json.exists_of_depth_alternative hdepth
      change (Json.count size).count?.bind (fun count => some (int count)) = _
      rw [Json.count?_count (of_decide_eq_true hcounts)]
      rfl
  | bytes length, hcounts, _, hdepth => by
      obtain ⟨depth, rfl, _⟩ := Json.exists_of_depth_alternative hdepth
      change (Json.count length).count?.bind (fun count => some (bytes count)) = _
      rw [Json.count?_count (of_decide_eq_true hcounts)]
      rfl
  | array size element, hcounts, _, hdepth => by
      obtain ⟨depth, rfl, hmembers⟩ := Json.exists_of_depth_alternative hdepth
      have helement := decode_toJson element hcounts (hmembers ("type", element.toJson) (by simp))
      have hjson : (array size element).toJson =
          .alternative "array" [("size", size.toJson), ("type", element.toJson)] := rfl
      rw [hjson, decode_array, Word.ofJson?_toJson, helement]
      rfl
  | dynArray element, hcounts, _, hdepth => by
      obtain ⟨depth, rfl, hmembers⟩ := Json.exists_of_depth_alternative hdepth
      have helement := decode_toJson element hcounts (hmembers ("type", element.toJson) (by simp))
      change (do return dynArray (← decode depth element.toJson)) = _
      rw [helement]
      rfl
  | tuple elements, hcounts, _, hdepth => by
      obtain ⟨depth, rfl, hmembers⟩ := Json.exists_of_depth_alternative hdepth
      have hitems := hmembers ("elements", .array (toJsonList elements)) (by simp)
      have helements := mapM_decode_toJsonList elements hcounts (Nat.le_of_succ_le hitems)
      change (do return tuple (← (toJsonList elements).mapM (decode depth))) = _
      rw [helements]
      rfl

theorem mapM_decode_toJsonList : (types : List AbiType) → allCountsFit types = true →
    {depth : Nat} → Json.depthOfItems (toJsonList types) ≤ depth →
    (toJsonList types).mapM (decode depth) = some types
  | [], _, _, _ => rfl
  | type :: rest, hcounts, depth, hdepth => by
      rw [allCountsFit, Bool.and_eq_true] at hcounts
      rw [toJsonList, Json.depthOfItems] at hdepth
      have htype := decode_toJson type hcounts.1 (le_of_max_le_left hdepth)
      have hrest := mapM_decode_toJsonList rest hcounts.2 (le_of_max_le_right hdepth)
      rw [toJsonList, List.mapM_cons, htype, hrest]
      rfl

end

theorem ofJson?_toJson {type : AbiType} (h : type.countsFit = true) :
    ofJson? type.toJson = some type :=
  decode_toJson type h (Nat.le_refl _)

theorem listOfJson?_toJson {types : List AbiType} (h : ∀ type ∈ types, type.countsFit = true) :
    listOfJson? (.array (types.map toJson)) = some types :=
  Json.mapM_inverts_map fun type htype => ofJson?_toJson (h type htype)

end AbiType

theorem Argument.ofJson?_toJson {argument : Argument} (h : argument.type.countsFit = true) :
    Argument.ofJson? argument.toJson = some argument := by
  change (do return Argument.mk argument.name (← AbiType.ofJson? argument.type.toJson)) = _
  rw [AbiType.ofJson?_toJson h]
  rfl

def Interface.CountsFit (interface : Interface) : Prop :=
  ∀ argument ∈ interface.arguments, argument.type.countsFit = true

theorem Interface.ofJson?_toJson {interface : Interface} (h : interface.CountsFit) :
    Interface.ofJson? interface.toJson = some interface := by
  have harguments : (interface.arguments.map Argument.toJson).mapM Argument.ofJson? =
      some interface.arguments :=
    Json.mapM_inverts_map fun argument hargument => Argument.ofJson?_toJson (h argument hargument)
  change (do
    return Interface.mk interface.name
      (← (interface.arguments.map Argument.toJson).mapM Argument.ofJson?)) = _
  rw [harguments]
  rfl

theorem EntryPoint.ofJson?_toJson (entry : EntryPoint) :
    EntryPoint.ofJson? entry.toJson = some entry := by
  cases entry <;> rfl

def SlotType.CountsFit : SlotType → Prop
  | .value type => type.countsFit = true
  | .mapping keys element => (∀ key ∈ keys, key.countsFit = true) ∧ element.countsFit = true

theorem SlotType.ofJson?_toJson {type : SlotType} (h : type.CountsFit) :
    SlotType.ofJson? type.toJson = some type := by
  cases type with
  | value type =>
      change (do return SlotType.value (← AbiType.ofJson? type.toJson)) = _
      rw [AbiType.ofJson?_toJson h]
      rfl
  | mapping keys element =>
      change (do
        return SlotType.mapping (← AbiType.listOfJson? (.array (keys.map AbiType.toJson)))
          (← AbiType.ofJson? element.toJson)) = _
      rw [AbiType.listOfJson?_toJson h.1, AbiType.ofJson?_toJson h.2]
      rfl

structure StorageVariable.CountsFit (stored : StorageVariable) : Prop where
  offset : stored.offset < twoTo 64
  type : stored.type.CountsFit

theorem StorageVariable.ofJson?_object (name slot offset type : Json) :
    StorageVariable.ofJson?
        (.object [("name", name), ("slot", slot), ("offset", offset), ("type", type)]) = do
      return ⟨← name.string?, ← Word.ofJson? slot, ← offset.count?, ← SlotType.ofJson? type⟩ :=
  rfl

theorem StorageVariable.ofJson?_toJson {stored : StorageVariable} (h : stored.CountsFit) :
    StorageVariable.ofJson? stored.toJson = some stored := by
  rw [toJson, ofJson?_object, Word.ofJson?_toJson, Json.count?_count h.offset,
    SlotType.ofJson?_toJson h.type]
  rfl

def Layout.CountsFit (layout : Layout) : Prop :=
  ∀ stored ∈ layout.declarations, stored.CountsFit

theorem Layout.ofJson?_toJson {layout : Layout} (h : layout.CountsFit) :
    Layout.ofJson? layout.toJson = some layout := by
  have hdeclarations : (layout.declarations.map StorageVariable.toJson).mapM
      StorageVariable.ofJson? = some layout.declarations :=
    Json.mapM_inverts_map fun stored hstored => StorageVariable.ofJson?_toJson (h stored hstored)
  change (do
    return Layout.mk
      (← (layout.declarations.map StorageVariable.toJson).mapM StorageVariable.ofJson?)) = _
  rw [hdeclarations]
  rfl

end SpecRecovery
