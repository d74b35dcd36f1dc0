import SpecRecovery.Json.Basic
import SpecRecovery.Text.Numeral

namespace SpecRecovery.Json

def escapedChar (char : Char) : String :=
  if char = '"' then "\\\""
  else if char = '\\' then "\\\\"
  else if char = '\n' then "\\n"
  else if char = '\r' then "\\r"
  else if char = '\t' then "\\t"
  else if char = '\x08' then "\\b"
  else if char = '\x0c' then "\\f"
  else if char.toNat < 0x20 then "\\u" ++ String.ofList (Text.hexDigits 4 char.toNat)
  else char.toString

def quote (text : String) : String :=
  text.foldl (fun done char => done ++ escapedChar char) "\"" ++ "\""

mutual

-- The value without any whitespace between its tokens. An unreadable value is written as null.
def compact : Json → String
  | null | unreadable => "null"
  | boolean value => if value then "true" else "false"
  | integer value => toString value
  | fraction spelling => spelling
  | string value => quote value
  | array items => "[" ++ ",".intercalate (compactItems items) ++ "]"
  | object members => "\x7b" ++ ",".intercalate (compactMembers members) ++ "\x7d"

def compactItems : List Json → List String
  | [] => []
  | item :: rest => compact item :: compactItems rest

def compactMembers : List (String × Json) → List String
  | [] => []
  | (name, value) :: rest => (quote name ++ ":" ++ compact value) :: compactMembers rest

end

def indented (level : Nat) (lines : List String) : String :=
  let margin := "\n" ++ "".pushn ' ' (2 * level)
  ",".intercalate (lines.map (margin ++ ·))

-- An opening bracket, indented lines and a closing bracket on a line of its own. Nothing stands
-- between the brackets when there are no lines.
def block (level : Nat) (opening closing : String) (lines : List String) : String :=
  if lines.isEmpty then opening ++ closing
  else opening ++ indented (level + 1) lines ++ "\n" ++ "".pushn ' ' (2 * level) ++ closing

mutual

def prettyAt (level : Nat) : Json → String
  | array items => block level "[" "]" (prettyItems (level + 1) items)
  | object members => block level "\x7b" "\x7d" (prettyMembers (level + 1) members)
  | null | unreadable => "null"
  | boolean value => if value then "true" else "false"
  | integer value => toString value
  | fraction spelling => spelling
  | string value => quote value

def prettyItems (level : Nat) : List Json → List String
  | [] => []
  | item :: rest => prettyAt level item :: prettyItems level rest

def prettyMembers (level : Nat) : List (String × Json) → List String
  | [] => []
  | (name, value) :: rest =>
      (quote name ++ ": " ++ prettyAt level value) :: prettyMembers level rest

end

def pretty (json : Json) : String := prettyAt 0 json

end SpecRecovery.Json
