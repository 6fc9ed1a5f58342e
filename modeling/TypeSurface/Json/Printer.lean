import TypeSurface.Json.Basic

/-!
# Written JSON

Two layouts: compact, without any blank, and indented by two spaces a level, where only empty arrays
and objects stay on one line.
-/

namespace TypeSurface
namespace Json

def hexDigit (n : Nat) : Char := (Nat.toDigits 16 (n % 16)).headD '0'

/-- Quote, backslash and the characters below the space are escaped, and nothing else. -/
def escapedChar (c : Char) : List Char :=
  if c = '"' then ['\\', '"']
  else if c = '\\' then ['\\', '\\']
  else if c = '\x08' then ['\\', 'b']
  else if c = '\x0c' then ['\\', 'f']
  else if c = '\n' then ['\\', 'n']
  else if c = '\r' then ['\\', 'r']
  else if c = '\t' then ['\\', 't']
  else if c.toNat < 0x20 then
    ['\\', 'u', '0', '0', hexDigit (c.toNat / 16), hexDigit c.toNat]
  else [c]

def escaped (s : String) : String :=
  String.ofList ('"' :: (s.toList.flatMap escapedChar ++ ['"']))

mutual

def compact : Json → String
  | null => "null"
  | bool value => if value then "true" else "false"
  | number value => toString value
  | string value => escaped value
  | array items => "[" ++ ",".intercalate (compactItems items) ++ "]"
  | object fields => "\x7b" ++ ",".intercalate (compactFields fields) ++ "\x7d"

def compactItems : List Json → List String
  | [] => []
  | item :: items => item.compact :: compactItems items

def compactFields : List (String × Json) → List String
  | [] => []
  | (name, value) :: fields => (escaped name ++ ":" ++ value.compact) :: compactFields fields

end

/-- A line break and the indentation of a level. -/
def lineAt (level : Nat) : String := "\n" ++ "".pushn ' ' (2 * level)

/-- Items between brackets, each on a line of its own. -/
def block (opening closing : String) (level : Nat) (items : List String) : String :=
  if items.isEmpty then opening ++ closing
  else
    opening ++ lineAt (level + 1) ++ ("," ++ lineAt (level + 1)).intercalate items ++
      lineAt level ++ closing

mutual

def indentedAt (level : Nat) : Json → String
  | array items => block "[" "]" level (indentedItems (level + 1) items)
  | object fields => block "\x7b" "\x7d" level (indentedFields (level + 1) fields)
  | value => value.compact

def indentedItems (level : Nat) : List Json → List String
  | [] => []
  | item :: items => item.indentedAt level :: indentedItems level items

def indentedFields (level : Nat) : List (String × Json) → List String
  | [] => []
  | (name, value) :: fields =>
    (escaped name ++ ": " ++ value.indentedAt level) :: indentedFields level fields

end

def indented (value : Json) : String := value.indentedAt 0

end Json
end TypeSurface
