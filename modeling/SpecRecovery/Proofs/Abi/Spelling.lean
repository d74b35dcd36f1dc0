import SpecRecovery.Proofs.Abi.Reading

namespace SpecRecovery.AbiType

open Text

-- The characters at which pieces are cut or that count parentheses, and the blanks.
def isSeparator (char : Char) : Bool := char == ',' || isParenthesis char || isBlank char

theorem not_isSeparator_of_isDecimal {char : Char} (h : isDecimal char = true) :
    isSeparator char = false := by
  have hrange : 48 ≤ char.toNat ∧ char.toNat ≤ 57 := by
    unfold isDecimal decimalValue? at h
    split at h
    · assumption
    · exact nomatch h
  have hne {other : Char} (hother : other.toNat < 48) : (char == other) = false := by
    rw [beq_eq_false_iff_ne]
    rintro rfl
    omega
  have hblank : isBlank char = false := by
    simp only [isBlank, Bool.or_eq_false_iff, Bool.and_eq_false_iff, beq_eq_false_iff_ne,
      decide_eq_false_iff_not]
    omega
  simp [isSeparator, isParenthesis, hne, hblank]

-- A text that a piece takes up as it stands, whatever stands around it.
def Whole (text : List Char) : Prop :=
  ∀ depth backwards rest,
    pieces depth backwards (text ++ rest) = pieces depth (text.reverse ++ backwards) rest

-- The same inside of parentheses, where commas do not cut.
def WholeInside (text : List Char) : Prop :=
  ∀ depth backwards rest,
    pieces (depth + 1) backwards (text ++ rest) =
      pieces (depth + 1) (text.reverse ++ backwards) rest

theorem Whole.inside {text : List Char} (h : Whole text) : WholeInside text :=
  fun depth => h (depth + 1)

theorem Whole.append {first second : List Char} (hfirst : Whole first) (hsecond : Whole second) :
    Whole (first ++ second) := by
  intro depth backwards rest
  rw [List.append_assoc, hfirst, hsecond, List.reverse_append, List.append_assoc]

theorem WholeInside.append {first second : List Char} (hfirst : WholeInside first)
    (hsecond : WholeInside second) : WholeInside (first ++ second) := by
  intro depth backwards rest
  rw [List.append_assoc, hfirst, hsecond, List.reverse_append, List.append_assoc]

theorem extend_of_not_isBlank {char : Char} (h : isBlank char = false) (backwards : List Char) :
    extend char backwards = char :: backwards := by
  simp [extend, h]

theorem whole_of_forall {text : List Char} (h : ∀ char ∈ text, isSeparator char = false) :
    Whole text := by
  intro depth backwards rest
  induction text generalizing backwards with
  | nil => rfl
  | cons char others ih =>
      obtain ⟨hchar, hothers⟩ := List.forall_mem_cons.mp h
      simp only [isSeparator, isParenthesis, Bool.or_eq_false_iff, beq_eq_false_iff_ne] at hchar
      obtain ⟨⟨hcomma, hopening, hclosing⟩, hblank⟩ := hchar
      rw [List.cons_append, pieces, if_neg fun h => hcomma h.1, if_neg hopening, if_neg hclosing,
        extend_of_not_isBlank hblank, ih hothers, List.reverse_cons, List.append_assoc]
      rfl

theorem wholeInside_comma : WholeInside [','] := by
  intro depth backwards rest
  simp [pieces, extend_of_not_isBlank (show isBlank ',' = false by decide)]

theorem WholeInside.inParentheses {body : List Char} (h : WholeInside body) :
    Whole ('(' :: body ++ [')']) := by
  intro depth backwards rest
  have hopening := extend_of_not_isBlank (show isBlank '(' = false by decide) backwards
  have hclosing := extend_of_not_isBlank (show isBlank ')' = false by decide)
    (body.reverse ++ '(' :: backwards)
  have hbody := h depth ('(' :: backwards) (')' :: rest)
  simp [pieces, hopening, hbody, hclosing]

theorem whole_openingBracket : Whole ['['] :=
  whole_of_forall (List.forall_mem_singleton.mpr (by decide))

theorem whole_closingBracket : Whole [']'] :=
  whole_of_forall (List.forall_mem_singleton.mpr (by decide))

-- A text that is read as a name, if it is one.
def Unbroken (text : List Char) : Prop := ∀ char ∈ text, isSeparator char = false ∧ char ≠ ']'

instance (text : List Char) : Decidable (Unbroken text) :=
  List.decidableBAll _ text

theorem Unbroken.whole {text : List Char} (h : Unbroken text) : Whole text :=
  whole_of_forall fun char hchar => (h char hchar).1

theorem unbroken_of_forall_isDecimal {text : List Char} (h : ∀ char ∈ text, isDecimal char = true) :
    Unbroken text := by
  intro char hchar
  refine ⟨not_isSeparator_of_isDecimal (h char hchar), ?_⟩
  rintro rfl
  exact absurd (h _ hchar) (by decide)

theorem openingBracket_not_mem_decimalDigits (number : Nat) : '[' ∉ decimalDigits number :=
  fun hmem => absurd (isDecimal_of_mem_decimalDigits _ hmem) (by decide)

theorem unbroken_numbered {word : List Char} (hword : Unbroken word) (number : Nat) :
    Unbroken (word ++ decimalDigits number) :=
  List.forall_mem_append.mpr
    ⟨hword, unbroken_of_forall_isDecimal isDecimal_of_mem_decimalDigits⟩

mutual

theorem whole_spelling : (type : AbiType) → Whole (spelling type)
  | uint size | int size | bytes size => (unbroken_numbered (by decide) size).whole
  | address | bool | dynBytes | string | function => Unbroken.whole (by decide)
  | array size element => by
      have hdigits : Unbroken (decimalDigits size.toNat) :=
        unbroken_of_forall_isDecimal isDecimal_of_mem_decimalDigits
      exact ((whole_spelling element).append (whole_openingBracket.append hdigits.whole)).append
        whole_closingBracket
  | dynArray element =>
      (whole_spelling element).append (whole_openingBracket.append whole_closingBracket)
  | tuple elements => (wholeInside_spellings elements).inParentheses

theorem wholeInside_spellings : (types : List AbiType) → WholeInside (spellings types)
  | [] => fun _ _ _ => rfl
  | [element] => (whole_spelling element).inside
  | element :: next :: rest =>
      (whole_spelling element).inside.append
        (wholeInside_comma.append (wholeInside_spellings (next :: rest)))

end

theorem spelling_array (size : Word) (element : AbiType) : spelling (array size element) =
    spelling element ++ '[' :: decimalDigits size.toNat ++ [']'] :=
  rfl

theorem spelling_dynArray (element : AbiType) :
    spelling (dynArray element) = spelling element ++ ['[', ']'] :=
  rfl

theorem spelling_tuple (elements : List AbiType) :
    spelling (tuple elements) = '(' :: spellings elements ++ [')'] :=
  rfl

theorem exists_spelling_eq_cons : (type : AbiType) →
    ∃ char rest, spelling type = char :: rest ∧ isBlank char = false
  | uint _ | int _ | bytes _ => ⟨_, _, rfl, by decide⟩
  | address | bool | dynBytes | string | function => ⟨_, _, rfl, by decide⟩
  | array size element => by
      obtain ⟨char, rest, hspelling, hblank⟩ := exists_spelling_eq_cons element
      refine ⟨char, rest ++ '[' :: decimalDigits size.toNat ++ [']'], ?_, hblank⟩
      rw [spelling_array, hspelling, List.cons_append, List.cons_append]
  | dynArray element => by
      obtain ⟨char, rest, hspelling, hblank⟩ := exists_spelling_eq_cons element
      refine ⟨char, rest ++ ['[', ']'], ?_, hblank⟩
      rw [spelling_dynArray, hspelling, List.cons_append]
  | tuple _ => ⟨_, _, rfl, by decide⟩

theorem pieces_spellings (first : AbiType) (others : List AbiType) :
    pieces 0 [] (spellings (first :: others)) =
      (first :: others).map fun type => (spelling type).reverse := by
  induction others generalizing first with
  | nil => simpa [spellings, pieces] using whole_spelling first 0 [] []
  | cons next rest ih =>
      have hcut : spellings (first :: next :: rest) =
          spelling first ++ ',' :: spellings (next :: rest) := rfl
      rw [hcut, whole_spelling, List.append_nil, pieces, if_pos ⟨rfl, rfl⟩, ih]
      rfl

-- The pieces of a tuple's body spell the elements.
theorem elementPieces_spellings (types : List AbiType) :
    elementPieces (spellings types) = types.map fun type => (spelling type).reverse := by
  cases types with
  | nil => rfl
  | cons first others =>
      have hbody : (spellings (first :: others)).all isBlank = false := by
        obtain ⟨char, rest, hspelling, hblank⟩ := exists_spelling_eq_cons first
        cases others <;> simp [spellings, hspelling, hblank]
      rw [elementPieces, hbody, if_neg (by decide), pieces_spellings]

theorem ofBackwards?_of_name {name : List Char} {type : AbiType} (hplain : Unbroken name)
    (h : ofName? name = some type) : ofBackwards? name.reverse = .ok type := by
  cases hname : name.reverse with
  | nil =>
      rw [List.reverse_eq_nil_iff.mp hname] at h
      have hnone : ofName? [] = none := by decide
      exact nomatch hnone.symm.trans h
  | cons char rest =>
      have hchar : char ∈ name := List.mem_reverse.mp (hname ▸ List.mem_cons_self)
      obtain ⟨hseparator, hbracket⟩ := hplain char hchar
      simp only [isSeparator, isParenthesis, Bool.or_eq_false_iff, beq_eq_false_iff_ne]
        at hseparator
      obtain ⟨⟨-, -, hclosing⟩, hblank⟩ := hseparator
      rw [ofBackwards?.eq_def]
      simp only [hblank, hbracket, hclosing, ← hname, List.reverse_reverse, h]
      rfl

theorem cutDimension?_append {dimension before : List Char} (h : '[' ∉ dimension) :
    cutDimension? (dimension.reverse ++ '[' :: before) = some (before, dimension) := by
  have hdimension : ∀ char ∈ dimension.reverse, (char != '[') = true := by
    intro char hchar
    rw [bne_iff_ne]
    rintro rfl
    exact h (List.mem_reverse.mp hchar)
  rw [cutDimension?, List.dropWhile_append_of_pos hdimension,
    List.takeWhile_append_of_pos hdimension]
  simp

-- A dimension is read after the type in front of it.
theorem ofBackwards?_dimension {text dimension : List Char} {element type : AbiType}
    (hdimension : '[' ∉ dimension) (helement : ofBackwards? text.reverse = .ok element)
    (h : dimension = [] ∧ dynArray element = type ∨ ∃ size,
      countOfDecimal? (twoTo 64) dimension = some size ∧
        array (BitVec.ofNat 256 size) element = type) :
    ofBackwards? (text ++ '[' :: dimension ++ [']']).reverse = .ok type := by
  have hcut : cutDimension? (dimension.reverse ++ '[' :: text.reverse) =
      some (text.reverse, dimension) :=
    cutDimension?_append hdimension
  have hreverse : (text ++ '[' :: dimension ++ [']']).reverse =
      ']' :: (dimension.reverse ++ '[' :: text.reverse) := by simp
  rw [hreverse, ofBackwards?.eq_def]
  simp only [show isBlank ']' = false by decide, Bool.false_eq_true, if_false, if_true]
  split
  · next hnone => cases hnone.symm.trans hcut
  · next before cut hsome =>
      obtain ⟨rfl, rfl⟩ := Prod.mk.inj (Option.some.inj (hsome.symm.trans hcut))
      rw [helement]
      rcases h with ⟨rfl, rfl⟩ | ⟨size, hsize, rfl⟩
      · rfl
      · cases cut with
        | nil => cases hsize
        | cons digit digits =>
            rw [hsize]
            rfl

theorem ofBackwards?_inParentheses {body : List Char} {elements : List AbiType}
    (h : (elementPieces body).mapM ofBackwards? = .ok elements) :
    ofBackwards? ('(' :: body ++ [')']).reverse = .ok (tuple elements) := by
  have hreverse : ('(' :: body ++ [')']).reverse = ')' :: (body.reverse ++ ['(']) := by simp
  have hbody : inParentheses? (body.reverse ++ ['(']) = some body := by simp [inParentheses?]
  have helements : (elementPieces body).attach.mapM (fun piece => ofBackwards? piece.val) =
      .ok elements := by
    rw [mapM_eq_ok] at h ⊢
    rwa [← List.attach_map_subtype_val (elementPieces body), List.forall₂_map_left_iff] at h
  rw [hreverse, ofBackwards?.eq_def]
  simp only [show isBlank ')' = false by decide, Bool.false_eq_true, if_false, if_true,
    show (')' = ']') = False by decide]
  split
  · next hnone => cases hnone.symm.trans hbody
  · next found hsome =>
      obtain rfl := Option.some.inj (hsome.symm.trans hbody)
      rw [helements]
      rfl

theorem widthOf?_decimalDigits {size : Nat} (h : (uint size).isWellSized = true) :
    widthOf? (decimalDigits size) = some size := by
  simp only [isWellSized, Bool.and_eq_true, beq_iff_eq, decide_eq_true_iff] at h
  obtain ⟨⟨hbytes, hleast⟩, hmost⟩ := h
  have hlimit : size < twoTo 64 := Nat.lt_of_le_of_lt hmost (by decide)
  have hpositive : 0 < size := by omega
  simp [widthOf?, countOfDecimal?_decimalDigits hlimit, hpositive, hmost, hbytes]

theorem lengthOf?_decimalDigits {length : Nat} (h : (bytes length).isWellSized = true) :
    lengthOf? (decimalDigits length) = some length := by
  simp only [isWellSized, Bool.and_eq_true, decide_eq_true_iff] at h
  obtain ⟨hleast, hmost⟩ := h
  have hlimit : length < twoTo 64 := Nat.lt_of_le_of_lt hmost (by decide)
  have hpositive : 0 < length := hleast
  simp [lengthOf?, countOfDecimal?_decimalDigits hlimit, hpositive, hmost]

theorem ofName?_uint {size : Nat} (h : (uint size).isWellSized = true) :
    ofName? ("uint".toList ++ decimalDigits size) = some (uint size) := by
  have hdigits := decimalDigits_ne_nil size
  simp [ofName?, hdigits, List.isPrefixOf?, widthOf?_decimalDigits h]

theorem ofName?_int {size : Nat} (h : (int size).isWellSized = true) :
    ofName? ("int".toList ++ decimalDigits size) = some (int size) := by
  have hdigits := decimalDigits_ne_nil size
  simp [ofName?, hdigits, List.isPrefixOf?, widthOf?_decimalDigits h]

theorem ofName?_bytes {length : Nat} (h : (bytes length).isWellSized = true) :
    ofName? ("bytes".toList ++ decimalDigits length) = some (bytes length) := by
  have hdigits := decimalDigits_ne_nil length
  simp [ofName?, hdigits, List.isPrefixOf?, lengthOf?_decimalDigits h]

mutual

theorem ofBackwards?_spelling : (type : AbiType) → type.isWellSized = true →
    type.hasCountedSizes = true → ofBackwards? (spelling type).reverse = .ok type
  | uint size, hsized, _ =>
      ofBackwards?_of_name (unbroken_numbered (by decide) size) (ofName?_uint hsized)
  | int size, hsized, _ =>
      ofBackwards?_of_name (unbroken_numbered (by decide) size) (ofName?_int hsized)
  | bytes length, hsized, _ =>
      ofBackwards?_of_name (unbroken_numbered (by decide) length) (ofName?_bytes hsized)
  | address, _, _ | bool, _, _ | dynBytes, _, _ | string, _, _ | function, _, _ =>
      ofBackwards?_of_name (by decide) (by decide)
  | array size element, hsized, hcounted => by
      rw [hasCountedSizes, Bool.and_eq_true, decide_eq_true_iff] at hcounted
      have helement := ofBackwards?_spelling element hsized hcounted.2
      have hdigits := openingBracket_not_mem_decimalDigits size.toNat
      have hsize := countOfDecimal?_decimalDigits hcounted.1
      exact ofBackwards?_dimension hdigits helement (.inr ⟨_, hsize, by simp⟩)
  | dynArray element, hsized, hcounted => by
      have helement := ofBackwards?_spelling element hsized hcounted
      have hread := ofBackwards?_dimension List.not_mem_nil helement (.inl ⟨rfl, rfl⟩)
      rwa [List.append_assoc] at hread
  | tuple elements, hsized, hcounted => by
      have helements := forall₂_ofBackwards?_spelling elements hsized hcounted
      refine ofBackwards?_inParentheses (mapM_eq_ok.mpr ?_)
      rwa [elementPieces_spellings, List.forall₂_map_left_iff]

theorem forall₂_ofBackwards?_spelling : (types : List AbiType) → areWellSized types = true →
    haveCountedSizes types = true →
    List.Forall₂ (fun first second => ofBackwards? (spelling first).reverse = .ok second)
      types types
  | [], _, _ => .nil
  | type :: rest, hsized, hcounted => by
      rw [areWellSized, Bool.and_eq_true] at hsized
      rw [haveCountedSizes, Bool.and_eq_true] at hcounted
      exact .cons (ofBackwards?_spelling type hsized.1 hcounted.1)
        (forall₂_ofBackwards?_spelling rest hsized.2 hcounted.2)

end

theorem parse_text {type : AbiType} (hsized : type.isWellSized = true)
    (hcounted : type.hasCountedSizes = true) : parse type.text = .ok type := by
  obtain ⟨char, rest, hspelling, hblank⟩ := exists_spelling_eq_cons type
  have htrim : (spelling type).dropWhile isBlank = spelling type := by
    rw [hspelling, List.dropWhile_cons_of_neg (by simp [hblank])]
  rw [parse, text, String.toList_ofList, ofSpelling?, htrim]
  exact ofBackwards?_spelling type hsized hcounted

-- Exactly the types within the bounds are read back from their spellings. Any other text that is
-- read spells such a type too, and its parentheses match.
theorem parse_inverts_text :
    (∀ type : AbiType, parse type.text = .ok type ↔
      type.isWellSized = true ∧ type.hasCountedSizes = true) ∧
    ∀ text : String, (∃ error, parse text = .error error) ∨
      ∃ type, parse text = .ok type ∧ type.isWellSized = true ∧ type.hasCountedSizes = true ∧
        Balanced text.toList := by
  constructor
  · intro type
    constructor
    · intro h
      have hspelled := spelledBy_of_parse h
      exact ⟨hspelled.sized, hspelled.counted⟩
    · rintro ⟨hsized, hcounted⟩
      exact parse_text hsized hcounted
  · intro text
    cases h : parse text with
    | error error => exact .inl ⟨error, rfl⟩
    | ok type =>
        have hspelled := spelledBy_of_parse h
        exact .inr ⟨type, rfl, hspelled.sized, hspelled.counted, hspelled.balanced⟩

end SpecRecovery.AbiType
