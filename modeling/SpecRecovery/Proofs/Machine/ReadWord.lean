import Mathlib.Data.List.GetD
import SpecRecovery.Machine.Evaluation
import SpecRecovery.Proofs.Result
import SpecRecovery.Proofs.Word.Bytes

namespace SpecRecovery.Machine

-- A written word covers 32 bytes, and everything else stays as it was, with zeros after the end.
theorem getD_overwrite (bytes : List UInt8) (offset : Nat) (value : Word) (index : Nat) :
    (overwrite bytes offset value).getD index 0 =
      if offset ≤ index ∧ index < offset + Word.sizeBytes then value.toBytes.getD (index - offset) 0
      else bytes.getD index 0 := by
  have hlength : (bytes.take offset ++ List.replicate (offset - bytes.length) 0).length =
      offset := by
    rw [List.length_append, List.length_take, List.length_replicate]
    omega
  rw [overwrite, ← List.append_assoc]
  by_cases hbefore : index < offset
  · rw [if_neg (by omega), List.getD_append _ _ _ _ (by omega)]
    by_cases hinside : index < bytes.length
    · rw [List.getD_append _ _ _ _ (by rw [List.length_take]; omega)]
      simp [hbefore]
    · have hshort : ¬index < min offset bytes.length := by omega
      simp only [List.getD_eq_getElem?_getD, List.getElem?_append, List.length_take, hshort,
        if_false, List.getElem?_replicate, List.getElem?_eq_none (Nat.le_of_not_lt hinside)]
      split <;> rfl
  · rw [List.getD_append_right _ _ _ _ (by omega), hlength]
    by_cases hwithin : index < offset + Word.sizeBytes
    · rw [if_pos ⟨by omega, hwithin⟩, List.getD_append _ _ _ _ (by rw [Word.length_toBytes]; omega)]
    · rw [if_neg (by omega), List.getD_append_right _ _ _ _ (by rw [Word.length_toBytes]; omega),
        Word.length_toBytes]
      simp only [List.getD_eq_getElem?_getD, List.getElem?_drop]
      congr 2
      omega

theorem length_wordBytes (bytes : List UInt8) (offset : Nat) :
    (wordBytes bytes offset).length = Word.sizeBytes := by
  simp [wordBytes]

-- Offsets are far too small for positions to start again.
theorem getElem_wordBytes {bytes : List UInt8} {offset index : Nat}
    (hoffset : offset + Word.sizeBytes ≤ twoTo 64) (h : index < (wordBytes bytes offset).length) :
    (wordBytes bytes offset)[index] = bytes.getD (offset + index) 0 := by
  rw [length_wordBytes] at h
  simp only [wordBytes, List.getElem_map, List.getElem_range]
  rw [Nat.mod_eq_of_lt (by omega)]

-- The 32 bytes of a buffer from an offset on. Zeros stand where the buffer has ended.
def window (bytes : List UInt8) (offset : Nat) : List UInt8 :=
  (bytes.drop offset ++ List.replicate Word.sizeBytes 0).take Word.sizeBytes

theorem wordBytes_eq_window {offset : Nat} (hoffset : offset + Word.sizeBytes ≤ twoTo 64)
    (bytes : List UInt8) : wordBytes bytes offset = window bytes offset := by
  have hlength : (window bytes offset).length = Word.sizeBytes := by
    simp [window]
  apply List.ext_getElem
  · rw [length_wordBytes, hlength]
  · intro index h hwindow
    rw [getElem_wordBytes hoffset]
    rw [hlength] at hwindow
    simp only [window, List.getElem_take, List.getElem_append, List.length_drop]
    by_cases hinside : index < bytes.length - offset
    · rw [dif_pos hinside, List.getElem_drop, List.getD_eq_getElem _ _ (by omega)]
    · rw [dif_neg hinside, List.getElem_replicate, List.getD_eq_default _ _ (by omega)]

theorem wordBytes_overwrite_self {offset : Nat} (hoffset : offset + Word.sizeBytes ≤ twoTo 64)
    (bytes : List UInt8) (value : Word) :
    wordBytes (overwrite bytes offset value) offset = value.toBytes := by
  apply List.ext_getElem
  · rw [length_wordBytes, Word.length_toBytes]
  · intro index h hvalue
    have hindex := h
    rw [length_wordBytes] at hindex
    rw [getElem_wordBytes hoffset, getD_overwrite, if_pos (by omega), Nat.add_sub_cancel_left,
      List.getD_eq_getElem _ _ hvalue]

theorem wordBytes_overwrite_apart {written offset : Nat}
    (hoffset : offset + Word.sizeBytes ≤ twoTo 64)
    (happart : written + Word.sizeBytes ≤ offset ∨ offset + Word.sizeBytes ≤ written)
    (bytes : List UInt8) (value : Word) :
    wordBytes (overwrite bytes written value) offset = wordBytes bytes offset := by
  apply List.ext_getElem
  · rw [length_wordBytes, length_wordBytes]
  · intro index h hother
    have hindex := h
    rw [length_wordBytes] at hindex
    rw [getElem_wordBytes hoffset, getElem_wordBytes hoffset, getD_overwrite, if_neg (by omega)]

-- Whatever is evaluated for a buffer with a write on top.
theorem bytes_write_eq_ok {assignment : Assignment} {position value : Expr} {base : Buffer}
    {bytes : List UInt8} (h : (Buffer.write position value base).bytes assignment = .ok bytes) :
    ∃ place offset word rest, position.eval assignment = .ok place ∧
      place.toOffset? = some offset ∧ offset ≤ maximumOffset ∧ value.eval assignment = .ok word ∧
      base.bytes assignment = .ok rest ∧ bytes = overwrite rest offset word := by
  rw [Buffer.bytes] at h
  obtain ⟨place, hplace, h⟩ := bind_eq_ok.mp h
  split at h
  · next offset hoffset =>
      split at h
      · next hle =>
          obtain ⟨word, hword, h⟩ := bind_eq_ok.mp h
          obtain ⟨rest, hrest, h⟩ := bind_eq_ok.mp h
          exact ⟨place, offset, word, rest, hplace, hoffset, hle, hword, hrest,
            (Except.ok.inj h).symm⟩
      · cases h
  · cases h

-- The word that the shape of a buffer tells is evaluated with the buffer, and its bytes are there.
theorem wordBytes_of_wordAt? {assignment : Assignment} {offset : Nat}
    (hoffset : offset + Word.sizeBytes ≤ twoTo 64) : (buffer : Buffer) → {word : Expr} →
    {bytes : List UInt8} → buffer.wordAt? offset = some word →
    buffer.bytes assignment = .ok bytes →
    ∃ value, word.eval assignment = .ok value ∧ wordBytes bytes offset = value.toBytes
  | .concrete held, word, bytes, hword, hbytes => by
      obtain rfl := Option.some.inj hword
      obtain rfl := Except.ok.inj hbytes
      exact ⟨_, rfl, (Word.toBytes_ofBytes (length_wordBytes held offset)).symm⟩
  | .abstract _, _, _, hword, _ => nomatch hword
  | .write position value base, word, bytes, hword, hbytes => by
      rw [Buffer.wordAt?] at hword
      obtain ⟨literal, hliteral, hword⟩ := Option.bind_eq_some_iff.mp hword
      obtain ⟨written, hwritten, hword⟩ := Option.bind_eq_some_iff.mp hword
      obtain rfl := Expr.literal?_eq_some_iff.mp hliteral
      obtain ⟨place, found, held, rest, hplace, hfound, _, hheld, hrest, rfl⟩ :=
        bytes_write_eq_ok hbytes
      obtain rfl := Except.ok.inj hplace
      obtain rfl := Option.some.inj (hfound.symm.trans hwritten)
      split at hword
      · next hsame =>
          obtain rfl := Option.some.inj hword
          subst hsame
          exact ⟨held, hheld, wordBytes_overwrite_self hoffset rest held⟩
      · split at hword
        · next happart =>
            obtain ⟨below, hbelow, hbytes⟩ :=
              wordBytes_of_wordAt? hoffset base hword hrest
            exact ⟨below, hbelow,
              (wordBytes_overwrite_apart hoffset happart rest held).trans hbytes⟩
        · exact nomatch hword

-- Exactly 32 bytes are one word from the first byte on.
theorem wordBytes_zero {bytes : List UInt8} (h : bytes.length = Word.sizeBytes) :
    wordBytes bytes 0 = bytes := by
  apply List.ext_getElem
  · rw [length_wordBytes, h]
  · intro index hindex hbytes
    rw [getElem_wordBytes (by decide), Nat.zero_add, List.getD_eq_getElem _ _ hbytes]

-- A buffer that was made for one word has the bytes of that word.
theorem bytes_ofWord {assignment : Assignment} {expr : Expr} {value : Word}
    (h : expr.eval assignment = .ok value) :
    (Buffer.ofWord expr).bytes assignment = .ok value.toBytes := by
  rw [Buffer.ofWord, Buffer.bytes, h, Expr.eval, Buffer.empty, Buffer.bytes]
  have hbytes : overwrite [] 0 value = value.toBytes := by simp [overwrite]
  rw [← hbytes]
  rfl

-- A word that the shape of a buffer tells has a value wherever the buffer has one, and the bytes
-- there are its digits to the base 256.
theorem told_word_agrees_with_bytes {offset : Nat} (hoffset : offset < twoTo 32) {buffer : Buffer}
    {word : Expr} {assignment : Assignment} {bytes : List UInt8}
    (hword : buffer.wordAt? offset = some word) (hbytes : buffer.bytes assignment = .ok bytes) :
    ∃ value, word.eval assignment = .ok value ∧ window bytes offset = value.toBytes ∧
      Word.numeral (window bytes offset) = value.toNat := by
  have hfits : offset + Word.sizeBytes ≤ twoTo 64 := by
    have hbound : offset < 2 ^ 32 := hoffset
    show offset + 32 ≤ 2 ^ 64
    omega
  obtain ⟨value, hvalue, hread⟩ := wordBytes_of_wordAt? hfits buffer hword hbytes
  rw [wordBytes_eq_window hfits] at hread
  refine ⟨value, hvalue, hread, ?_⟩
  rw [hread]
  exact Word.numeral_toBytes value

-- Three bytes with a word behind a gap, and a word directly after the one that is read.
def frameBuffer : Buffer :=
  .write (.lit 33) (.var "later") (.write (.lit 70) (.var "far") (.concrete [7, 8, 9]))

def frameAssignment : Assignment := ⟨.ofList [("later", 5), ("far", 6)], .empty, 0, .empty⟩

-- From the second byte on, there are two bytes, and then the zeros that fill the gap.
theorem told_word_agrees_with_bytes_frame :
    ∃ word bytes, frameBuffer.wordAt? 1 = some word ∧
      frameBuffer.bytes frameAssignment = .ok bytes ∧
      ∃ value, word.eval frameAssignment = .ok value ∧ window bytes 1 = value.toBytes ∧
        Word.numeral (window bytes 1) = value.toNat := by
  have hword : (frameBuffer.wordAt? 1).isSome = true := by decide +kernel
  have hbytes : (frameBuffer.bytes frameAssignment).toOption.isSome = true := by decide +kernel
  obtain ⟨word, hword⟩ := Option.isSome_iff_exists.mp hword
  obtain ⟨bytes, hbytes⟩ := Option.isSome_iff_exists.mp hbytes
  rw [toOption_eq_some] at hbytes
  exact ⟨word, bytes, hword, hbytes,
    told_word_agrees_with_bytes (by decide) hword hbytes⟩

end SpecRecovery.Machine
