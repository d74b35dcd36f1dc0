import SpecRecovery.Proofs.Abi.Codec
import SpecRecovery.Proofs.Spec.Signedness
import SpecRecovery.Spec.ExpressionCodec

namespace SpecRecovery

theorem Environment.ofJson?_toJson (value : Environment) :
    Environment.ofJson? value.toJson = some value := by
  cases value <;> rfl

namespace Spec

-- Types in which 64 bits hold every width and length.
def counted : Vocabulary where
  atom
    | .var _ type => type.countsFit = true
    | .entry _ item => item.type.countsFit = true
    | _ => True
  fact type _ := type.countsFit = true

theorem Timing.ofJson?_toJson (timing : Timing) : Timing.ofJson? timing.toJson = some timing := by
  cases timing <;> rfl

theorem StorageItem.ofJson?_toJson {item : StorageItem} (h : item.type.countsFit = true) :
    StorageItem.ofJson? item.toJson = some item := by
  change (do
    return StorageItem.mk item.contract item.name (← AbiType.ofJson? item.type.toJson)) = _
  rw [AbiType.ofJson?_toJson h]
  rfl

theorem BytesExpr.ofJson?_toJson (expr : BytesExpr) :
    BytesExpr.ofJson? expr.toJson = some expr := by
  cases expr with
  | var name => rfl
  | lit value =>
      have hbytes : (value.map fun byte : UInt8 => Json.count byte.toNat).mapM
          (fun json : Json => do return UInt8.ofNat (← json.countBelow? 256)) = some value :=
        Json.mapM_inverts_map fun byte _ => by
          have hlimit : (Json.count byte.toNat).countBelow? 256 = some byte.toNat :=
            if_pos byte.toNat_lt
          rw [hlimit]
          simp
      change (do
        return BytesExpr.lit (← (value.map fun byte : UInt8 => Json.count byte.toNat).mapM
          fun json : Json => do return UInt8.ofNat (← json.countBelow? 256))) = _
      rw [hbytes]
      rfl

theorem ContractExpr.ofJson?_toJson (expr : ContractExpr) :
    ContractExpr.ofJson? expr.toJson = some expr := by
  cases expr
  rfl

-- What a reader does with each alternative.
section Steps

variable (depth : Nat)

theorem IntExpr.decode_lit (value : Json) :
    IntExpr.decode (depth + 1) (.alternative "lit" [("value", value)]) = do
      return .lit (← Json.BigInteger.read? value) :=
  rfl

theorem IntExpr.decode_arithmetic (op : Arithmetic) (left right : Json) :
    IntExpr.decode (depth + 1)
        (.alternative op.key [(op.sides.1, left), (op.sides.2, right)]) = do
      return .arithmetic op (← IntExpr.decode depth left) (← IntExpr.decode depth right) := by
  cases op <;> rfl

theorem BoolExpr.decode_join (op : Connective) (left right : Json) :
    BoolExpr.decode (depth + 1)
        (.alternative op.key [(op.sides.1, left), (op.sides.2, right)]) = do
      return .join op (← BoolExpr.decode depth left) (← BoolExpr.decode depth right) := by
  cases op <;> rfl

theorem BoolExpr.decode_compare (op : Comparison) (left right : Json) :
    BoolExpr.decode (depth + 1) (.alternative op.key [("left", left), ("right", right)]) = do
      return .compare op (← IntExpr.decode depth left) (← IntExpr.decode depth right) := by
  cases op <;> rfl

end Steps

-- Readers with enough depth read back what was written.
mutual

theorem IntExpr.decode_toJson : (expr : IntExpr) → expr.BuiltFrom counted → {depth : Nat} →
    expr.toJson.depth ≤ depth → IntExpr.decode depth expr.toJson = some expr
  | .lit value, _, _, hdepth => by
      obtain ⟨depth, rfl, _⟩ := Json.exists_of_depth_alternative hdepth
      change IntExpr.decode (depth + 1)
        (.alternative "lit" [("value", Json.BigInteger.write value)]) = _
      rw [IntExpr.decode_lit, Json.BigInteger.read?_write]
      rfl
  | .var name type, hbuilt, _, hdepth => by
      obtain ⟨depth, rfl, _⟩ := Json.exists_of_depth_alternative hdepth
      change (do return IntExpr.var name (← AbiType.ofJson? type.toJson)) = _
      rw [AbiType.ofJson?_toJson hbuilt]
      rfl
  | .env value, _, _, hdepth => by
      obtain ⟨depth, rfl, _⟩ := Json.exists_of_depth_alternative hdepth
      change (do return IntExpr.env (← Environment.ofJson? value.toJson)) = _
      rw [Environment.ofJson?_toJson]
      rfl
  | .entry timing item, hbuilt, _, hdepth => by
      obtain ⟨depth, rfl, _⟩ := Json.exists_of_depth_alternative hdepth
      change (do
        return IntExpr.entry (← Timing.ofJson? timing.toJson)
          (← StorageItem.ofJson? item.toJson)) = _
      rw [Timing.ofJson?_toJson, StorageItem.ofJson?_toJson hbuilt]
      rfl
  | .arithmetic op left right, hbuilt, _, hdepth => by
      obtain ⟨depth, rfl, hmembers⟩ := Json.exists_of_depth_alternative hdepth
      have hleft := left.decode_toJson hbuilt.1 (hmembers (op.sides.1, left.toJson) (by simp))
      have hright := right.decode_toJson hbuilt.2 (hmembers (op.sides.2, right.toJson) (by simp))
      change IntExpr.decode (depth + 1)
        (.alternative op.key [(op.sides.1, left.toJson), (op.sides.2, right.toJson)]) = _
      rw [IntExpr.decode_arithmetic, hleft, hright]
      rfl
  | .ite condition first second, hbuilt, _, hdepth => by
      obtain ⟨depth, rfl, hmembers⟩ := Json.exists_of_depth_alternative hdepth
      have hcondition := condition.decode_toJson hbuilt.1
        (hmembers ("condition", condition.toJson) (by simp))
      have hfirst := first.decode_toJson hbuilt.2.1 (hmembers ("then", first.toJson) (by simp))
      have hsecond := second.decode_toJson hbuilt.2.2
        (hmembers ("otherwise", second.toJson) (by simp))
      change (do
        return IntExpr.ite (← BoolExpr.decode depth condition.toJson)
          (← IntExpr.decode depth first.toJson) (← IntExpr.decode depth second.toJson)) = _
      rw [hcondition, hfirst, hsecond]
      rfl

theorem BoolExpr.decode_toJson : (expr : BoolExpr) → expr.BuiltFrom counted → {depth : Nat} →
    expr.toJson.depth ≤ depth → BoolExpr.decode depth expr.toJson = some expr
  | .lit value, _, _, hdepth => by
      obtain ⟨depth, rfl, _⟩ := Json.exists_of_depth_alternative hdepth
      rfl
  | .join op left right, hbuilt, _, hdepth => by
      obtain ⟨depth, rfl, hmembers⟩ := Json.exists_of_depth_alternative hdepth
      have hleft := left.decode_toJson hbuilt.1 (hmembers (op.sides.1, left.toJson) (by simp))
      have hright := right.decode_toJson hbuilt.2 (hmembers (op.sides.2, right.toJson) (by simp))
      change BoolExpr.decode (depth + 1)
        (.alternative op.key [(op.sides.1, left.toJson), (op.sides.2, right.toJson)]) = _
      rw [BoolExpr.decode_join, hleft, hright]
      rfl
  | .neg value, hbuilt, _, hdepth => by
      obtain ⟨depth, rfl, hmembers⟩ := Json.exists_of_depth_alternative hdepth
      have hvalue := value.decode_toJson hbuilt (hmembers ("value", value.toJson) (by simp))
      change (do return BoolExpr.neg (← BoolExpr.decode depth value.toJson)) = _
      rw [hvalue]
      rfl
  | .compare op left right, hbuilt, _, hdepth => by
      obtain ⟨depth, rfl, hmembers⟩ := Json.exists_of_depth_alternative hdepth
      have hleft := left.decode_toJson hbuilt.1 (hmembers ("left", left.toJson) (by simp))
      have hright := right.decode_toJson hbuilt.2 (hmembers ("right", right.toJson) (by simp))
      change BoolExpr.decode (depth + 1)
        (.alternative op.key [("left", left.toJson), ("right", right.toJson)]) = _
      rw [BoolExpr.decode_compare, hleft, hright]
      rfl
  | .eq equation, hbuilt, _, hdepth => by
      obtain ⟨depth, rfl, hmembers⟩ := Json.exists_of_depth_alternative hdepth
      have hequation := equation.decode_toJson hbuilt
        (hmembers ("equality", equation.toJson) (by simp))
      change (do return BoolExpr.eq (← Equation.decode depth equation.toJson)) = _
      rw [hequation]
      rfl
  | .neq equation, hbuilt, _, hdepth => by
      obtain ⟨depth, rfl, hmembers⟩ := Json.exists_of_depth_alternative hdepth
      have hequation := equation.decode_toJson hbuilt
        (hmembers ("equality", equation.toJson) (by simp))
      change (do return BoolExpr.neq (← Equation.decode depth equation.toJson)) = _
      rw [hequation]
      rfl
  | .inRange type value, hbuilt, _, hdepth => by
      obtain ⟨depth, rfl, hmembers⟩ := Json.exists_of_depth_alternative hdepth
      have hvalue := value.decode_toJson hbuilt.1 (hmembers ("value", value.toJson) (by simp))
      change (do
        return BoolExpr.inRange (← AbiType.ofJson? type.toJson)
          (← IntExpr.decode depth value.toJson)) = _
      rw [AbiType.ofJson?_toJson hbuilt.2, hvalue]
      rfl

theorem Equation.decode_toJson : (equation : Equation) → equation.BuiltFrom counted →
    {depth : Nat} → equation.toJson.depth ≤ depth →
    Equation.decode depth equation.toJson = some equation
  | .integer left right, hbuilt, _, hdepth => by
      obtain ⟨depth, rfl, hmembers⟩ := Json.exists_of_depth_alternative hdepth
      have hleft := left.decode_toJson hbuilt.1 (hmembers ("left", left.toJson) (by simp))
      have hright := right.decode_toJson hbuilt.2 (hmembers ("right", right.toJson) (by simp))
      change (do
        return Equation.integer (← IntExpr.decode depth left.toJson)
          (← IntExpr.decode depth right.toJson)) = _
      rw [hleft, hright]
      rfl
  | .boolean left right, hbuilt, _, hdepth => by
      obtain ⟨depth, rfl, hmembers⟩ := Json.exists_of_depth_alternative hdepth
      have hleft := left.decode_toJson hbuilt.1 (hmembers ("left", left.toJson) (by simp))
      have hright := right.decode_toJson hbuilt.2 (hmembers ("right", right.toJson) (by simp))
      change (do
        return Equation.boolean (← BoolExpr.decode depth left.toJson)
          (← BoolExpr.decode depth right.toJson)) = _
      rw [hleft, hright]
      rfl
  | .byteString left right, _, _, hdepth => by
      obtain ⟨depth, rfl, _⟩ := Json.exists_of_depth_alternative hdepth
      change (do
        return Equation.byteString (← BytesExpr.ofJson? left.toJson)
          (← BytesExpr.ofJson? right.toJson)) = _
      rw [BytesExpr.ofJson?_toJson, BytesExpr.ofJson?_toJson]
      rfl
  | .contract left right, _, _, hdepth => by
      obtain ⟨depth, rfl, _⟩ := Json.exists_of_depth_alternative hdepth
      change (do
        return Equation.contract (← ContractExpr.ofJson? left.toJson)
          (← ContractExpr.ofJson? right.toJson)) = _
      rw [ContractExpr.ofJson?_toJson, ContractExpr.ofJson?_toJson]
      rfl

end

theorem IntExpr.ofJson?_toJson {expr : IntExpr} (h : expr.BuiltFrom counted) :
    IntExpr.ofJson? expr.toJson = some expr :=
  expr.decode_toJson h (Nat.le_refl _)

theorem BoolExpr.ofJson?_toJson {expr : BoolExpr} (h : expr.BuiltFrom counted) :
    BoolExpr.ofJson? expr.toJson = some expr :=
  expr.decode_toJson h (Nat.le_refl _)

end Spec

end SpecRecovery
