import Mathlib.Data.List.TakeWhile
import SpecRecovery.Abi.Spelling
import SpecRecovery.Proofs.Abi.Range
import SpecRecovery.Proofs.Result
import SpecRecovery.Proofs.Text.Balance
import SpecRecovery.Proofs.Text.Decimal

namespace SpecRecovery.AbiType

open Text

mutual

-- Whether 64 bits count the elements of every array of a fixed size.
def hasCountedSizes : AbiType → Bool
  | array size element => size.toNat < twoTo 64 && hasCountedSizes element
  | dynArray element => hasCountedSizes element
  | tuple elements => haveCountedSizes elements
  | _ => true

def haveCountedSizes : List AbiType → Bool
  | [] => true
  | element :: rest => hasCountedSizes element && haveCountedSizes rest

end

-- A type that a text without a lopsided parenthesis spells.
structure SpelledBy (text : List Char) (type : AbiType) : Prop where
  sized : type.isWellSized = true
  counted : type.hasCountedSizes = true
  balanced : Balanced text

theorem not_isParenthesis_of_isBlank {char : Char} (h : isBlank char = true) :
    isParenthesis char = false := by
  by_contra hparenthesis
  simp only [isParenthesis, Bool.not_eq_false, Bool.or_eq_true, beq_iff_eq] at hparenthesis
  rcases hparenthesis with rfl | rfl <;> exact absurd h (by decide)

theorem balanced_of_countOfDecimal? {limit value : Nat} {digits : List Char}
    (h : countOfDecimal? limit digits = some value) : Balanced digits := by
  refine balanced_of_forall fun char hchar => ?_
  by_contra hparenthesis
  simp only [isParenthesis, Bool.not_eq_false, Bool.or_eq_true, beq_iff_eq] at hparenthesis
  have hdigit := (countOfDecimal?_eq_some h).2 char hchar
  rcases hparenthesis with rfl | rfl <;> exact absurd hdigit (by decide)

theorem widthOf?_eq_some {digits : List Char} {width : Nat} (h : widthOf? digits = some width) :
    Balanced digits ∧ (uint width).isWellSized = true := by
  obtain ⟨count, hcount, h⟩ := Option.bind_eq_some_iff.mp h
  split at h
  · next hwidth =>
      obtain rfl := Option.some.inj h
      have hleast : 8 ≤ count := by omega
      exact ⟨balanced_of_countOfDecimal? hcount, by simp [isWellSized, hwidth, hleast]⟩
  · exact nomatch h

theorem lengthOf?_eq_some {digits : List Char} {length : Nat} (h : lengthOf? digits = some length) :
    Balanced digits ∧ (bytes length).isWellSized = true := by
  obtain ⟨count, hcount, h⟩ := Option.bind_eq_some_iff.mp h
  split at h
  · next hlength =>
      obtain rfl := Option.some.inj h
      have hleast : 1 ≤ count := hlength.1
      exact ⟨balanced_of_countOfDecimal? hcount, by simp [isWellSized, hlength, hleast]⟩
  · exact nomatch h

-- The types whose names have no number in them.
def fixedNames : List (String × AbiType) :=
  [("address", address), ("bool", bool), ("bytes", dynBytes), ("string", string),
    ("function", function), ("uint", uint256), ("int", int Word.sizeBits)]

theorem ofName?_cases {name : List Char} {type : AbiType} (h : ofName? name = some type) :
    (∃ word, (word, type) ∈ fixedNames ∧ name = word.toList) ∨
      ∃ word digits, name = word.toList ++ digits ∧
        ((word = "uint" ∧ ∃ width, widthOf? digits = some width ∧ uint width = type) ∨
          (word = "int" ∧ ∃ width, widthOf? digits = some width ∧ int width = type) ∨
          (word = "bytes" ∧ ∃ length, lengthOf? digits = some length ∧ bytes length = type)) := by
  have hfixed {word : String} {fixed : AbiType} (hword : (word, fixed) ∈ fixedNames)
      (hname : name = word.toList) (h : some fixed = some type) :
      ∃ word, (word, type) ∈ fixedNames ∧ name = word.toList :=
    ⟨word, Option.some.inj h ▸ hword, hname⟩
  unfold ofName? at h
  iterate 7
    rcases ite_eq_iff.mp h with ⟨hname, h⟩ | ⟨_, h⟩
    · exact .inl (hfixed (by simp [fixedNames]) hname h)
  right
  split at h
  · next digits hdigits =>
      exact ⟨"uint", digits, (List.append_eq_of_isPrefixOf?_eq_some hdigits).symm,
        .inl ⟨rfl, Option.map_eq_some_iff.mp h⟩⟩
  · split at h
    · next digits hdigits =>
        exact ⟨"int", digits, (List.append_eq_of_isPrefixOf?_eq_some hdigits).symm,
          .inr (.inl ⟨rfl, Option.map_eq_some_iff.mp h⟩)⟩
    · split at h
      · next digits hdigits =>
          exact ⟨"bytes", digits, (List.append_eq_of_isPrefixOf?_eq_some hdigits).symm,
            .inr (.inr ⟨rfl, Option.map_eq_some_iff.mp h⟩)⟩
      · exact nomatch h

theorem spelledBy_of_ofName? {name : List Char} {type : AbiType} (h : ofName? name = some type) :
    SpelledBy name type := by
  rcases ofName?_cases h with ⟨word, hword, rfl⟩ | ⟨word, digits, rfl, hword⟩
  · have hsized : ∀ entry ∈ fixedNames,
        entry.2.isWellSized = true ∧ entry.2.hasCountedSizes = true := by decide
    have hplain : ∀ entry ∈ fixedNames, ∀ char ∈ entry.1.toList, isParenthesis char = false := by
      simp [fixedNames, isParenthesis]
    exact ⟨(hsized _ hword).1, (hsized _ hword).2, balanced_of_forall (hplain _ hword)⟩
  · have hplain : ∀ word ∈ ["uint", "int", "bytes"], ∀ char ∈ word.toList,
        isParenthesis char = false := by
      simp [isParenthesis]
    rcases hword with ⟨rfl, width, hwidth, rfl⟩ | ⟨rfl, width, hwidth, rfl⟩ |
      ⟨rfl, length, hlength, rfl⟩
    · obtain ⟨hdigits, hsized⟩ := widthOf?_eq_some hwidth
      exact ⟨hsized, rfl, (balanced_of_forall (hplain _ (by decide))).append hdigits⟩
    · obtain ⟨hdigits, hsized⟩ := widthOf?_eq_some hwidth
      exact ⟨hsized, rfl, (balanced_of_forall (hplain _ (by decide))).append hdigits⟩
    · obtain ⟨hdigits, hsized⟩ := lengthOf?_eq_some hlength
      exact ⟨hsized, rfl, (balanced_of_forall (hplain _ (by decide))).append hdigits⟩

theorem cutDimension?_eq_some {backwards before dimension : List Char}
    (h : cutDimension? backwards = some (before, dimension)) :
    backwards.reverse = before.reverse ++ '[' :: dimension := by
  unfold cutDimension? at h
  split at h
  · cases h
  · next cut _ hcut =>
      obtain ⟨rfl, rfl⟩ := Prod.mk.inj (Option.some.inj h)
      have hbracket : cut = '[' := by
        simpa [hcut] using List.head_dropWhile_not (· != '[') (l := backwards) (by simp [hcut])
      have hparts := List.takeWhile_append_dropWhile (p := (· != '[')) (l := backwards)
      rw [hcut, hbracket] at hparts
      conv_lhs => rw [← hparts]
      simp

theorem inParentheses?_eq_some {backwards body : List Char}
    (h : inParentheses? backwards = some body) : backwards.reverse = '(' :: body := by
  unfold inParentheses? at h
  split at h
  · next hbody => rw [hbody, Option.some.inj h]
  · exact nomatch h

-- A text is balanced if its pieces are, although a closing parenthesis too many is passed over.
theorem balanced_of_pieces {depth : Nat} {backwards text : List Char}
    (h : ∀ piece ∈ pieces depth backwards text, Balanced piece.reverse) :
    Balanced (backwards.reverse ++ text) := by
  induction text generalizing depth backwards with
  | nil => simpa [pieces] using h
  | cons char rest ih =>
      rw [pieces] at h
      split at h
      · next hcomma =>
          obtain ⟨hfirst, hothers⟩ := List.forall_mem_cons.mp h
          have hchar : Balanced [char] := balanced_of_forall (by simp [hcomma.1, isParenthesis])
          exact hfirst.append (hchar.append (ih hothers))
      · have hrest := ih h
        unfold extend at hrest
        split at hrest
        · next hblank =>
            obtain ⟨hnil, hblank⟩ := Bool.and_eq_true_iff.mp hblank
            have hchar : Balanced [char] :=
              balanced_of_forall (by simpa using not_isParenthesis_of_isBlank hblank)
            simpa [List.isEmpty_iff.mp hnil] using hchar.append hrest
        · simpa using hrest

theorem balanced_of_elementPieces {body : List Char}
    (h : ∀ piece ∈ elementPieces body, Balanced piece.reverse) : Balanced body := by
  unfold elementPieces at h
  split at h
  · next hblank =>
      exact balanced_of_forall fun char hchar =>
        not_isParenthesis_of_isBlank (List.all_eq_true.mp hblank char hchar)
  · exact balanced_of_pieces h

theorem all_spelledBy {pieces : List (List Char)} {types : List AbiType}
    (h : List.Forall₂ (fun piece type => SpelledBy piece.reverse type) pieces types) :
    areWellSized types = true ∧ haveCountedSizes types = true := by
  induction h with
  | nil => exact ⟨rfl, rfl⟩
  | cons hfirst _ ih =>
      simp [areWellSized, haveCountedSizes, hfirst.sized, hfirst.counted, ih]

theorem spelledBy_of_ofBackwards? {backwards : List Char} {type : AbiType}
    (h : ofBackwards? backwards = .ok type) : SpelledBy backwards.reverse type := by
  fun_induction ofBackwards? backwards generalizing type with
  | case1 => exact nomatch h
  | case2 char rest hblank ih =>
      have hchar : Balanced [char] :=
        balanced_of_forall (by simpa using not_isParenthesis_of_isBlank hblank)
      rw [List.reverse_cons]
      exact { ih h with balanced := (ih h).balanced.append hchar }
  | case3 | case5 | case8 => exact nomatch h
  | case4 rest before dimension hcut _ ih =>
      have hclosing : Balanced [']'] := balanced_of_forall (by simp [isParenthesis])
      have hopening : Balanced ['['] := balanced_of_forall (by simp [isParenthesis])
      obtain ⟨element, helement, h⟩ := bind_eq_ok.mp h
      have hspelled := ih helement
      have hbalanced (hdimension : Balanced dimension) : Balanced (']' :: rest).reverse := by
        have hparts := ((hspelled.balanced.append hopening).append hdimension).append hclosing
        simpa [cutDimension?_eq_some hcut] using hparts
      split at h
      · next hempty =>
          obtain rfl := Except.ok.inj h
          rw [List.isEmpty_iff] at hempty
          have hdimension : Balanced dimension := hempty ▸ balanced_of_forall (by simp)
          exact ⟨hspelled.sized, hspelled.counted, hbalanced hdimension⟩
      · split at h
        · next size hsize =>
            obtain rfl := Except.ok.inj h
            have hlimit := (countOfDecimal?_eq_some hsize).1
            have hword : (BitVec.ofNat 256 size).toNat < twoTo 64 :=
              Nat.lt_of_le_of_lt (BitVec.toNat_ofNat _ _ ▸ Nat.mod_le _ _) hlimit
            refine ⟨hspelled.sized, ?_, hbalanced (balanced_of_countOfDecimal? hsize)⟩
            rw [hasCountedSizes, hspelled.counted, Bool.and_true, decide_eq_true_iff]
            exact hword
        · exact nomatch h
  | case6 rest body hbody _ _ ih =>
      obtain ⟨elements, helements, h⟩ := bind_eq_ok.mp h
      obtain rfl := Except.ok.inj h
      have hspelled : List.Forall₂ (fun piece type => SpelledBy piece.reverse type)
          (elementPieces body) elements := by
        rw [← List.attach_map_subtype_val (elementPieces body), List.forall₂_map_left_iff]
        exact (mapM_eq_ok.mp helements).imp fun piece type => ih piece
      obtain ⟨hsized, hcounted⟩ := all_spelledBy hspelled
      have hpieces : Balanced body := balanced_of_elementPieces fun piece hpiece => by
        obtain ⟨type, _, hpiece⟩ := (exists_of_forall₂ hspelled).1 piece hpiece
        exact hpiece.balanced
      refine ⟨hsized, hcounted, ?_⟩
      rw [List.reverse_cons, inParentheses?_eq_some hbody]
      exact hpieces.inParentheses
  | case7 char rest _ _ _ type hname =>
      obtain rfl := Except.ok.inj h
      exact spelledBy_of_ofName? hname

theorem spelledBy_of_parse {text : String} {type : AbiType} (h : parse text = .ok type) :
    SpelledBy text.toList type := by
  have hspelled := spelledBy_of_ofBackwards? h
  rw [List.reverse_reverse] at hspelled
  have hblanks : Balanced (text.toList.takeWhile isBlank) :=
    balanced_of_forall fun char hchar => not_isParenthesis_of_isBlank (List.mem_takeWhile_imp hchar)
  refine { hspelled with balanced := ?_ }
  rw [← List.takeWhile_append_dropWhile (p := isBlank) (l := text.toList)]
  exact hblanks.append hspelled.balanced

end SpecRecovery.AbiType
