import SpecRecovery.Proofs.Spec.ExpressionCodec
import SpecRecovery.Spec.SpecificationCodec

namespace SpecRecovery

namespace Spec

-- 64 bits hold every count in an update, that is the widths and lengths of its types.
structure StorageUpdate.CountsFit (update : StorageUpdate) : Prop where
  item : update.item.type.countsFit = true
  value : update.value.BuiltFrom counted

theorem StorageUpdate.ofJson?_toJson {update : StorageUpdate} (h : update.CountsFit) :
    StorageUpdate.ofJson? update.toJson = some update := by
  change (do
    return StorageUpdate.mk (← StorageItem.ofJson? update.item.toJson)
      (← IntExpr.ofJson? update.value.toJson)) = _
  rw [StorageItem.ofJson?_toJson h.item, IntExpr.ofJson?_toJson h.value]
  rfl

theorem StorageUpdate.listOfJson?_listToJson {updates : List StorageUpdate}
    (h : ∀ update ∈ updates, update.CountsFit) :
    listOfJson? (listToJson updates) = some updates :=
  Json.mapM_inverts_map fun update hupdate => ofJson?_toJson (h update hupdate)

theorem BoolExpr.listOfJson?_listToJson {exprs : List BoolExpr}
    (h : ∀ expr ∈ exprs, expr.BuiltFrom counted) : listOfJson? (listToJson exprs) = some exprs :=
  Json.mapM_inverts_map fun expr hexpr => ofJson?_toJson (h expr hexpr)

theorem StorageDeclaration.ofJson?_object (type slot : Json) :
    StorageDeclaration.ofJson? (.object [("type", type), ("slot", slot)]) = do
      return ⟨← SlotType.ofJson? type, ← Word.ofJson? slot⟩ :=
  rfl

theorem StorageDeclaration.ofJson?_toJson {declaration : StorageDeclaration}
    (h : declaration.type.CountsFit) :
    StorageDeclaration.ofJson? declaration.toJson = some declaration := by
  rw [toJson, ofJson?_object, SlotType.ofJson?_toJson h, Word.ofJson?_toJson]
  rfl

structure Constructor.CountsFit (constructor : Constructor) : Prop where
  interface : constructor.interface.CountsFit
  preconditions : ∀ expr ∈ constructor.preconditions, expr.BuiltFrom counted
  initialStorage : ∀ update ∈ constructor.initialStorage, update.CountsFit

theorem Constructor.ofJson?_toJson {constructor : Constructor} (h : constructor.CountsFit) :
    Constructor.ofJson? constructor.toJson = some constructor := by
  change (do
    return Constructor.mk constructor.contract (← Interface.ofJson? constructor.interface.toJson)
      (← BoolExpr.listOfJson? (BoolExpr.listToJson constructor.preconditions))
      (← StorageUpdate.listOfJson? (StorageUpdate.listToJson constructor.initialStorage))) = _
  rw [Interface.ofJson?_toJson h.interface, BoolExpr.listOfJson?_listToJson h.preconditions,
    StorageUpdate.listOfJson?_listToJson h.initialStorage]
  rfl

structure Behaviour.CountsFit (behaviour : Behaviour) : Prop where
  interface : behaviour.interface.CountsFit
  branch : behaviour.branch < twoTo 64
  preconditions : ∀ expr ∈ behaviour.preconditions, expr.BuiltFrom counted
  storageUpdates : ∀ update ∈ behaviour.storageUpdates, update.CountsFit
  returns : ∀ expr ∈ behaviour.returns, expr.BuiltFrom counted

-- No expression is written as null, which stands for none.
theorem Behaviour.returnsOfJson?_toJson {returns : Option IntExpr}
    (h : ∀ expr ∈ returns, expr.BuiltFrom counted) :
    returnsOfJson? ((returns.map IntExpr.toJson).getD .null) = some returns := by
  cases returns with
  | none => rfl
  | some expr =>
      have hexpr := IntExpr.ofJson?_toJson (h expr rfl)
      have hobject : ∃ members, expr.toJson = .object members := by cases expr <;> exact ⟨_, rfl⟩
      obtain ⟨members, hobject⟩ := hobject
      rw [hobject] at hexpr
      rw [Option.map_some, Option.getD_some, hobject, returnsOfJson?, hexpr]
      · rfl
      · exact Json.noConfusion

theorem Behaviour.ofJson?_toJson {behaviour : Behaviour} (h : behaviour.CountsFit) :
    Behaviour.ofJson? behaviour.toJson = some behaviour := by
  change (do
    return Behaviour.mk behaviour.name behaviour.contract
      (← Interface.ofJson? behaviour.interface.toJson) (← (Json.count behaviour.branch).count?)
      (← BoolExpr.listOfJson? (BoolExpr.listToJson behaviour.preconditions))
      (← StorageUpdate.listOfJson? (StorageUpdate.listToJson behaviour.storageUpdates))
      (← returnsOfJson? ((behaviour.returns.map IntExpr.toJson).getD .null))) = _
  rw [Interface.ofJson?_toJson h.interface, Json.count?_count h.branch,
    BoolExpr.listOfJson?_listToJson h.preconditions,
    StorageUpdate.listOfJson?_listToJson h.storageUpdates, returnsOfJson?_toJson h.returns]
  rfl

end Spec

namespace Specification

structure CountsFit (specification : Specification) : Prop where
  storage : ∀ contract ∈ specification.storage.entries, ∀ declaration ∈ contract.2.entries,
    declaration.2.type.CountsFit
  constructor : specification.constructor.CountsFit
  behaviours : ∀ behaviour ∈ specification.behaviours, behaviour.CountsFit

theorem storageOfJson?_storageToJson
    {storage : Table String (Table String Spec.StorageDeclaration)}
    (h : ∀ contract ∈ storage.entries, ∀ declaration ∈ contract.2.entries,
      declaration.2.type.CountsFit) :
    storageOfJson? (storageToJson storage) = some storage :=
  Json.ofJson?_toJson_table fun contract hcontract =>
    Json.ofJson?_toJson_table fun declaration hdeclaration =>
      Spec.StorageDeclaration.ofJson?_toJson (h contract hcontract declaration hdeclaration)

theorem ofJson?_toJson {specification : Specification} (h : specification.CountsFit) :
    Specification.ofJson? specification.toJson = some specification := by
  have hbehaviours : (specification.behaviours.map Spec.Behaviour.toJson).mapM
      Spec.Behaviour.ofJson? = some specification.behaviours :=
    Json.mapM_inverts_map fun behaviour hbehaviour =>
      Spec.Behaviour.ofJson?_toJson (h.behaviours behaviour hbehaviour)
  change (do
    return Specification.mk specification.contract
      (← storageOfJson? (storageToJson specification.storage))
      (← Spec.Constructor.ofJson? specification.constructor.toJson)
      (← (specification.behaviours.map Spec.Behaviour.toJson).mapM Spec.Behaviour.ofJson?)) = _
  rw [storageOfJson?_storageToJson h.storage, Spec.Constructor.ofJson?_toJson h.constructor,
    hbehaviours]
  rfl

-- Whatever is written is read back as it was, as long as its counts are the ones of a machine with
-- 64 bits. Integers may have any size.
theorem decoding_inverts_encoding :
    (∀ specification : Specification, specification.CountsFit →
      Specification.ofJson? specification.toJson = some specification) ∧
    (∀ layout : Layout, layout.CountsFit → Layout.ofJson? layout.toJson = some layout) ∧
    (∀ word : Word, Word.ofJson? word.toJson = some word) ∧
    (∀ selector : Selector, Selector.ofJson? selector.toJson = some selector) ∧
    ∀ entry : EntryPoint, EntryPoint.ofJson? entry.toJson = some entry :=
  ⟨fun _ h => ofJson?_toJson h, fun _ h => Layout.ofJson?_toJson h, Word.ofJson?_toJson,
    Selector.ofJson?_toJson, EntryPoint.ofJson?_toJson⟩

-- A ledger with a total that starts below the range of words.
def ledgerTotal : Spec.StorageItem := ⟨"Ledger", "total", .int 256⟩

def ledgerLayout : Layout :=
  ⟨[.ofValue "total" 0 (.int 256), ⟨"marks", 1, 0, .mapping [.address, .bytes 4] .dynBytes⟩]⟩

def ledgerPost : Spec.Behaviour where
  name := "post"
  contract := "Ledger"
  interface := ⟨"post", [⟨"entries", .dynArray (.tuple [.address, .array 3 (.uint 8)])⟩]⟩
  branch := 1
  preconditions := [.neg (.eq (.byteString (.lit [0, 255]) (.var "mark")))]
  storageUpdates := [⟨ledgerTotal, .ite (.inRange (.uint 128) (.pre ledgerTotal))
    (.arithmetic .exp (.env .caller) (.lit 3)) (.var "rest" (.int 8))⟩]
  returns := some (.post ledgerTotal)

def ledgerSpecification : Specification where
  contract := "Ledger"
  storage := .ofList [("Ledger", .ofList [("total", ⟨.value (.int 256), 0⟩)])]
  constructor := ⟨"Ledger", ⟨"constructor", []⟩, [], [⟨ledgerTotal, .lit (-2 ^ 300)⟩]⟩
  behaviours := [ledgerPost]

theorem decoding_inverts_encoding_ledger :
    ledgerSpecification.CountsFit ∧ ledgerLayout.CountsFit ∧
      Specification.ofJson? ledgerSpecification.toJson = some ledgerSpecification ∧
      Layout.ofJson? ledgerLayout.toJson = some ledgerLayout := by
  have hpost : ledgerPost.CountsFit := {
    interface := by
      simp [Interface.CountsFit, ledgerPost, AbiType.countsFit, AbiType.allCountsFit, twoTo]
    branch := by decide
    preconditions := by simp [ledgerPost, Spec.BoolExpr.BuiltFrom, Spec.Equation.BuiltFrom]
    storageUpdates := by
      simp only [ledgerPost, List.forall_mem_singleton]
      exact ⟨rfl, ⟨rfl, rfl⟩, ⟨trivial, trivial⟩, rfl⟩
    returns := fun _ hexpr => Option.some.inj hexpr ▸ rfl }
  have hspecification : ledgerSpecification.CountsFit := {
    storage := by
      intro contract hcontract declaration hdeclaration
      obtain rfl := List.mem_singleton.mp hcontract
      obtain rfl := List.mem_singleton.mp hdeclaration
      rfl
    constructor := {
      interface := fun _ hnone => nomatch hnone
      preconditions := fun _ hnone => nomatch hnone
      initialStorage := by
        simp only [ledgerSpecification, List.forall_mem_singleton]
        exact ⟨rfl, trivial⟩ }
    behaviours := fun _ hbehaviour => List.mem_singleton.mp hbehaviour ▸ hpost }
  have hlayout : ledgerLayout.CountsFit := by
    simp only [Layout.CountsFit, ledgerLayout, List.forall_mem_cons]
    refine ⟨⟨by decide, rfl⟩, ⟨by decide, ?_, rfl⟩, List.forall_mem_nil _⟩
    decide
  exact ⟨hspecification, hlayout, decoding_inverts_encoding.1 _ hspecification,
    decoding_inverts_encoding.2.1 _ hlayout⟩

end Specification

end SpecRecovery
