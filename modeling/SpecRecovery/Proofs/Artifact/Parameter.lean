import SpecRecovery.Artifact.Contract
import SpecRecovery.Proofs.Abi.Spelling

namespace SpecRecovery.Artifact

open Text

theorem parseType_eq_ok {text : String} {type : AbiType} :
    parseType text = .ok type ↔ AbiType.parse text = .ok type :=
  mapError_eq_ok

theorem abiTypes_eq_mapM (parameters : List Parameter) :
    abiTypes parameters = parameters.mapM Parameter.abiType := by
  induction parameters with
  | nil => rfl
  | cons parameter rest ih => rw [abiTypes, List.mapM_cons, ih]

-- Whether components are expanded or not, a type is read from a text in the end.
theorem exists_parse_of_abiType {parameter : Parameter} {type : AbiType}
    (h : parameter.abiType = .ok type) : ∃ text, AbiType.parse text = .ok type := by
  obtain ⟨name, spelled, components⟩ := parameter
  rw [Parameter.abiType] at h
  split at h
  · obtain ⟨elements, _, h⟩ := bind_eq_ok.mp h
    exact ⟨_, parseType_eq_ok.mp h⟩
  · exact ⟨_, parseType_eq_ok.mp h⟩

-- What stands in brackets behind a type: nothing, or the digits of a size.
inductive Dimension
  | unsized
  | sized (digits : List Char)

namespace Dimension

def spelling : Dimension → List Char
  | unsized => ['[', ']']
  | sized digits => '[' :: digits ++ [']']

-- A size is a decimal number of 64 bits.
def IsCount : Dimension → Prop
  | unsized => True
  | sized digits => digits ≠ [] ∧ (∀ digit ∈ digits, digit.isDigit = true) ∧
      decimalNumber digits < twoTo 64

-- The array with this dimension.
def wrap (element : AbiType) : Dimension → AbiType
  | unsized => .dynArray element
  | sized digits => .array (BitVec.ofNat 256 (decimalNumber digits)) element

variable {dimension : Dimension} {text : List Char} {element : AbiType}

theorem ofBackwards?_append_spelling (h : dimension.IsCount)
    (helement : AbiType.ofBackwards? text.reverse = .ok element) :
    AbiType.ofBackwards? (text ++ dimension.spelling).reverse = .ok (wrap element dimension) := by
  cases dimension with
  | unsized =>
      have hread := AbiType.ofBackwards?_dimension List.not_mem_nil helement (.inl ⟨rfl, rfl⟩)
      rwa [List.append_assoc] at hread
  | sized digits =>
      obtain ⟨hsome, hdigits, hlimit⟩ := h
      have hbracket : '[' ∉ digits := fun hmem => absurd (hdigits _ hmem) (by decide)
      have hsize := countOfDecimal?_of_digits hsome hdigits hlimit
      have hread := AbiType.ofBackwards?_dimension hbracket helement (.inr ⟨_, hsize, rfl⟩)
      rwa [List.append_assoc] at hread

-- The dimensions are read from the innermost, which comes first, to the outermost.
theorem ofBackwards?_append_spellings {dimensions : List Dimension}
    (h : ∀ dimension ∈ dimensions, dimension.IsCount)
    (helement : AbiType.ofBackwards? text.reverse = .ok element) :
    AbiType.ofBackwards? (text ++ dimensions.flatMap spelling).reverse =
      .ok (dimensions.foldl wrap element) := by
  induction dimensions generalizing text element with
  | nil => simpa using helement
  | cons first rest ih =>
      obtain ⟨hfirst, hrest⟩ := List.forall_mem_cons.mp h
      rw [List.flatMap_cons, ← List.append_assoc, List.foldl_cons]
      exact ih hrest (ofBackwards?_append_spelling hfirst helement)

end Dimension

-- The type of a parameter with components and these dimensions, innermost first.
def tupleType (dimensions : List Dimension) : String :=
  String.ofList ("tuple".toList ++ dimensions.flatMap Dimension.spelling)

theorem parse_parenthesis (rest : List Char) :
    AbiType.parse (String.ofList ('(' :: rest)) = AbiType.ofBackwards? ('(' :: rest).reverse := by
  have hblank : ¬isBlank '(' = true := by decide
  rw [AbiType.parse, String.toList_ofList, AbiType.ofSpelling?, List.dropWhile_cons_of_neg hblank]

theorem parse_expanded {elements : List AbiType} {dimensions : List Dimension}
    (hsized : AbiType.areWellSized elements = true)
    (hcounted : AbiType.haveCountedSizes elements = true)
    (h : ∀ dimension ∈ dimensions, dimension.IsCount) :
    parseType (String.ofList
      ('(' :: AbiType.spellings elements ++ ')' :: dimensions.flatMap Dimension.spelling)) =
        .ok (dimensions.foldl Dimension.wrap (.tuple elements)) := by
  have htuple := AbiType.ofBackwards?_spelling (.tuple elements) hsized hcounted
  have hread := Dimension.ofBackwards?_append_spellings h htuple
  have hspelling : AbiType.spelling (.tuple elements) ++ dimensions.flatMap Dimension.spelling =
      '(' :: AbiType.spellings elements ++ ')' :: dimensions.flatMap Dimension.spelling :=
    List.append_assoc _ _ _
  rw [hspelling] at hread
  exact parseType_eq_ok.mpr ((parse_parenthesis _).trans hread)

-- The components of a tuple are types that spellings are read back to.
theorem expanded_of_components {components : List Parameter} {elements : List AbiType}
    (h : List.Forall₂ (fun component element => component.abiType = .ok element)
      components elements) :
    AbiType.areWellSized elements = true ∧ AbiType.haveCountedSizes elements = true := by
  induction h with
  | nil => exact ⟨rfl, rfl⟩
  | cons hfirst _ ih =>
      obtain ⟨text, hparse⟩ := exists_parse_of_abiType hfirst
      have hspelled := AbiType.spelledBy_of_parse hparse
      simp [AbiType.areWellSized, AbiType.haveCountedSizes, hspelled.sized, hspelled.counted, ih]

theorem abiType_tuple (name : String) (components : List Parameter)
    (dimensions : List Dimension) :
    Parameter.abiType ⟨name, tupleType dimensions, components⟩ = (do
      let elements ← components.mapM Parameter.abiType
      parseType (String.ofList
        ('(' :: AbiType.spellings elements ++ ')' :: dimensions.flatMap Dimension.spelling))) := by
  have hprefix : "tuple".toList.isPrefixOf? (tupleType dimensions).toList =
      some (dimensions.flatMap Dimension.spelling) :=
    (congrArg _ String.toList_ofList).trans (by simp [List.isPrefixOf?])
  rw [Parameter.abiType, hprefix, abiTypes_eq_mapM]

-- A tuple with dimensions has a type exactly if its components have, and it is made of theirs: the
-- tuple of them in order, in an array for each dimension from the first to the last. Whatever goes
-- wrong, goes wrong in a component.
theorem tuple_expands_structurally (name : String) (components : List Parameter)
    (dimensions : List Dimension) (hdimensions : ∀ dimension ∈ dimensions, dimension.IsCount) :
    (∀ elements, List.Forall₂ (fun component element => component.abiType = .ok element)
        components elements →
      Parameter.abiType ⟨name, tupleType dimensions, components⟩ =
        .ok (dimensions.foldl Dimension.wrap (.tuple elements))) ∧
    ∀ error, Parameter.abiType ⟨name, tupleType dimensions, components⟩ = .error error →
      ∃ component ∈ components, component.abiType = .error error := by
  rw [abiType_tuple]
  have hread {elements : List AbiType} (h : List.Forall₂
      (fun component element => component.abiType = .ok element) components elements) :=
    (expanded_of_components h).elim fun hsized hcounted =>
      parse_expanded hsized hcounted hdimensions
  constructor
  · intro elements helements
    exact bind_eq_ok.mpr ⟨elements, mapM_eq_ok.mpr helements, hread helements⟩
  · intro error herror
    rcases bind_eq_error.mp herror with hcomponents | ⟨elements, helements, herror⟩
    · exact exists_of_mapM_eq_error hcomponents
    · exact nomatch (hread (mapM_eq_ok.mp helements)).symm.trans herror

-- Pairs of orders in which a maker is a tuple itself.
def orderComponents : List Parameter :=
  [⟨"maker", "tuple[]", [⟨"account", "address", []⟩, ⟨"tags", "bytes4[3][]", []⟩]⟩,
    ⟨"price", "uint", []⟩]

theorem tuple_expands_structurally_orders :
    Parameter.abiType ⟨"orders", "tuple[02][]", orderComponents⟩ =
      .ok (.dynArray (.array 2 (.tuple
        [.dynArray (.tuple [.address, .dynArray (.array 3 (.bytes 4))]), .uint256]))) := by
  have hdimensions : ∀ dimension ∈ [Dimension.sized ['0', '2'], .unsized], dimension.IsCount := by
    simp only [List.forall_mem_cons, Dimension.IsCount]
    exact ⟨⟨by decide, ⟨by decide, by decide, List.forall_mem_nil _⟩, by decide⟩, trivial,
      List.forall_mem_nil _⟩
  refine (tuple_expands_structurally "orders" orderComponents [.sized ['0', '2'], .unsized]
    hdimensions).1 _ (.cons ?_ (.cons ?_ .nil))
  · decide +kernel
  · decide +kernel

end SpecRecovery.Artifact
