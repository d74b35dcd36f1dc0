import SpecRecovery.Json.Basic
import SpecRecovery.Text.Numeral

namespace SpecRecovery.Json

inductive Token
  | openObject
  | closeObject
  | openArray
  | closeArray
  | comma
  | colon
  | scalar (value : Json)

def isWhitespace (char : Char) : Bool :=
  char == ' ' || char == '\n' || char == '\t' || char == '\r'

def escaped? : Char → Option Char
  | '"' => some '"'
  | '\\' => some '\\'
  | '/' => some '/'
  | 'b' => some '\x08'
  | 'f' => some '\x0c'
  | 'n' => some '\n'
  | 'r' => some '\r'
  | 't' => some '\t'
  | _ => none

def isHighSurrogate (unit : Nat) : Bool := 0xD800 ≤ unit && unit < 0xDC00

def isLowSurrogate (unit : Nat) : Bool := 0xDC00 ≤ unit && unit < 0xE000

-- Reads up to the closing quote. A high surrogate waits for the low one that has to follow it,
-- because neither is a character alone: a string with half of a pair has an end, but no text.
def readString (done : Option (List Char)) (high : Option Nat) :
    List Char → Option (Option (List Char) × List Char)
  | [] => none
  | '\\' :: 'u' :: a :: b :: c :: d :: rest =>
      match Text.numberOfHex? [a, b, c, d], high with
      | none, _ => none
      | some unit, none =>
          if isHighSurrogate unit then readString done (some unit) rest
          else if isLowSurrogate unit then readString none none rest
          else readString (done.map (Char.ofNat unit :: ·)) none rest
      | some unit, some first =>
          if isLowSurrogate unit then
            let code := 0x10000 + (first - 0xD800) * 0x400 + (unit - 0xDC00)
            readString (done.map (Char.ofNat code :: ·)) none rest
          else readString none none rest
  | char :: rest =>
      let done := if high.isSome then none else done
      if char = '"' then some (done.map List.reverse, rest)
      else if char = '\\' then
        match rest with
        | [] => none
        | mark :: rest =>
            match escaped? mark with
            | some char => readString (done.map (char :: ·)) none rest
            | none => none
      else if char.toNat < 0x20 then none
      else readString (done.map (char :: ·)) none rest

theorem length_readString {done value : Option (List Char)} {text rest : List Char}
    {high : Option Nat} (h : readString done high text = some (value, rest)) :
    rest.length < text.length := by
  fun_induction readString done high text <;> simp_all <;> omega

def isFractionOrExponent (text : List Char) : Bool :=
  let isDigits (digits : List Char) := !digits.isEmpty && digits.all Char.isDigit
  let isExponent (text : List Char) := match text with
    | [] => true
    | mark :: rest =>
        (mark == 'e' || mark == 'E') &&
          isDigits (match rest with | '+' :: digits => digits | '-' :: digits => digits | _ => rest)
  match text with
  | '.' :: rest =>
      !(rest.takeWhile Char.isDigit).isEmpty && isExponent (rest.dropWhile Char.isDigit)
  | _ => isExponent text

def numberOf? (spelling : List Char) : Option Json := do
  let negative := spelling.head? == some '-'
  let body := if negative then spelling.tail else spelling
  let whole := body.takeWhile Char.isDigit
  let rest := body.dropWhile Char.isDigit
  let value ← Text.numberOfDecimal? whole
  if whole.head? == some '0' && 1 < whole.length then none
  else if !rest.isEmpty then
    if isFractionOrExponent rest then some (fraction (String.ofList spelling)) else none
  else if negative && value == 0 then some (fraction (String.ofList spelling))
  else some (integer (if negative then -(value : Int) else value))

def isNumberChar (char : Char) : Bool :=
  char.isDigit || char == '-' || char == '+' || char == '.' || char == 'e' || char == 'E'

def punctuation? : Char → Option Token
  | '\x7b' => some .openObject
  | '\x7d' => some .closeObject
  | '[' => some .openArray
  | ']' => some .closeArray
  | ',' => some .comma
  | ':' => some .colon
  | _ => none

def readLiteral : List Char → Option (Json × List Char)
  | 't' :: 'r' :: 'u' :: 'e' :: rest => some (boolean true, rest)
  | 'f' :: 'a' :: 'l' :: 's' :: 'e' :: rest => some (boolean false, rest)
  | 'n' :: 'u' :: 'l' :: 'l' :: rest => some (null, rest)
  | _ => none

theorem length_readLiteral {text rest : List Char} {value : Json}
    (h : readLiteral text = some (value, rest)) : rest.length < text.length := by
  unfold readLiteral at h
  split at h <;> simp_all <;> omega

def ofCharacters : Option (List Char) → Json
  | some text => string (String.ofList text)
  | none => unreadable

def tokens? (text : List Char) : Option (List Token) :=
  match text with
  | [] => some []
  | char :: rest =>
      if isWhitespace char then tokens? rest
      else if char = '"' then
        match _h : readString (some []) none rest with
        | some (value, rest) => (tokens? rest).map (.scalar (ofCharacters value) :: ·)
        | none => none
      else if isNumberChar char then
        match numberOf? (char :: rest.takeWhile isNumberChar) with
        | some number => (tokens? (rest.dropWhile isNumberChar)).map (.scalar number :: ·)
        | none => none
      else
        match punctuation? char with
        | some token => (tokens? rest).map (token :: ·)
        | none =>
            match _h : readLiteral (char :: rest) with
            | some (value, rest) => (tokens? rest).map (.scalar value :: ·)
            | none => none
termination_by text.length
decreasing_by
  · simp
  · have := length_readString _h
    simp only [List.length_cons]
    omega
  · have := (List.dropWhile_sublist isNumberChar (l := rest)).length_le
    simp only [List.length_cons]
    omega
  · simp
  · exact length_readLiteral _h

-- A container whose end is still to come. What it holds so far is in reverse order, and an object
-- knows the name of the member that is being read. It has no members where one of the names has no
-- text.
inductive Frame
  | array (items : List Json)
  | object (members : Option (List (String × Json))) (name : String)

inductive Expected
  | value
  | firstItem
  | firstName
  | name
  | colon
  | separator
  | nothing (value : Json)

structure Reading where
  frames : List Frame
  expected : Expected

def Reading.put (frames : List Frame) (value : Json) : Reading :=
  match frames with
  | [] => ⟨[], .nothing value⟩
  | .array items :: outer => ⟨.array (value :: items) :: outer, .separator⟩
  | .object members name :: outer =>
      ⟨.object (members.map ((name, value) :: ·)) "" :: outer, .separator⟩

def Reading.begin (frames : List Frame) : Token → Option Reading
  | .scalar value => some (put frames value)
  | .openArray => some ⟨.array [] :: frames, .firstItem⟩
  | .openObject => some ⟨.object (some []) "" :: frames, .firstName⟩
  | _ => none

def Reading.close (frames : List Frame) : Token → Option Reading
  | .closeArray =>
      match frames with
      | .array items :: outer => some (put outer (.array items.reverse))
      | _ => none
  | .closeObject =>
      match frames with
      | .object (some members) _ :: outer => some (put outer (.object members.reverse))
      | .object none _ :: outer => some (put outer .unreadable)
      | _ => none
  | _ => none

def Reading.nameMember (frames : List Frame) : Token → Option Reading
  | .scalar (.string name) =>
      match frames with
      | .object members _ :: outer => some ⟨.object members name :: outer, .colon⟩
      | _ => none
  | .scalar .unreadable =>
      match frames with
      | .object _ _ :: outer => some ⟨.object none "" :: outer, .colon⟩
      | _ => none
  | _ => none

def Reading.step (reading : Reading) (token : Token) : Option Reading :=
  match reading.expected, token with
  | .value, _ => begin reading.frames token
  | .firstItem, .closeArray => close reading.frames token
  | .firstItem, _ => begin reading.frames token
  | .firstName, .closeObject => close reading.frames token
  | .firstName, _ => nameMember reading.frames token
  | .name, _ => nameMember reading.frames token
  | .colon, .colon => some ⟨reading.frames, .value⟩
  | .colon, _ => none
  | .separator, .comma =>
      match reading.frames with
      | .array _ :: _ => some ⟨reading.frames, .value⟩
      | .object _ _ :: _ => some ⟨reading.frames, .name⟩
      | [] => none
  | .separator, _ => close reading.frames token
  | .nothing _, _ => none

-- The value that a text holds. Nothing but whitespace may stand around it.
def read? (text : String) : Option Json := do
  let tokens ← tokens? text.toList
  let reading ← tokens.foldlM Reading.step ⟨[], .value⟩
  match reading.expected with
  | .nothing value => some value
  | _ => none

def maximumDepth : Nat := 127

-- The value that a text of any origin holds. What is nested too deeply in it cannot be looked at.
def readBounded? (text : String) : Option Json := (read? text).map (reach maximumDepth)

end SpecRecovery.Json
