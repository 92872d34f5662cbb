/-
JSON text: on one line, or indented by two blanks a level with every item and member on a line of its own.
-/
import RoadRules.Json.Basic
import RoadRules.Number.Decimal

namespace RoadRules.Json

/-- a character inside a string: quotes, backslashes and control characters are escaped -/
def escape (c : Char) : String :=
  if c == '"' then "\\\""
  else if c == '\\' then "\\\\"
  else if c == '\n' then "\\n"
  else if c == '\r' then "\\r"
  else if c == '\t' then "\\t"
  else if c == '\x08' then "\\b"
  else if c == '\x0c' then "\\f"
  else if c.toNat < 0x20 then
    let hex (n : Nat) : Char := if n < 10 then Char.ofNat ('0'.toNat + n) else Char.ofNat ('a'.toNat + n - 10)
    "\\u00" ++ String.ofList [hex (c.toNat / 16), hex (c.toNat % 16)]
  else String.singleton c

def quote (s : String) : String := "\"" ++ s.foldl (fun acc c => acc ++ escape c) "" ++ "\""

/-- a number with the fewest digits that read back; JSON has no word for an infinite one -/
def floatText (x : Float) : String :=
  match Number.parts x with
  | .finite negative m e => Number.scientific negative m e
  | _ => "null"

mutual

/-- a value on one line -/
def Tree.compact : Json → String
  | .null => "null"
  | .bool b => if b then "true" else "false"
  | .int n => toString n
  | .float x => floatText x
  | .str s => quote s
  | .arr items _ => "[" ++ ",".intercalate (compactItems items) ++ "]"
  | .obj members _ => "\x7b" ++ ",".intercalate (compactMembers members) ++ "\x7d"
  | .broken why | .unusable why => nomatch why

def compactItems : List Json → List String
  | [] => []
  | v :: rest => v.compact :: compactItems rest

def compactMembers : List (Except Empty String × Json) → List String
  | [] => []
  | (.ok name, v) :: rest => (quote name ++ ":" ++ v.compact) :: compactMembers rest
  | (.error why, _) :: _ => nomatch why

end

/-- lines between two brackets, or the brackets alone -/
def block (start stop : String) (depth : Nat) (lines : List String) : String :=
  if lines.isEmpty then start ++ stop
  else
    let indent := "".pushn ' ' (2 * (depth + 1))
    start ++ "\n" ++ ",\n".intercalate (lines.map (indent ++ ·)) ++ "\n" ++ "".pushn ' ' (2 * depth) ++ stop

mutual

/-- a value over several lines; `depth` is the level of the value -/
def Tree.indented (depth : Nat) : Json → String
  | .arr items _ => block "[" "]" depth (indentedItems (depth + 1) items)
  | .obj members _ => block "\x7b" "\x7d" depth (indentedMembers (depth + 1) members)
  | .null => "null"
  | .bool b => if b then "true" else "false"
  | .int n => toString n
  | .float x => floatText x
  | .str s => quote s
  | .broken why | .unusable why => nomatch why

def indentedItems (depth : Nat) : List Json → List String
  | [] => []
  | v :: rest => v.indented depth :: indentedItems depth rest

def indentedMembers (depth : Nat) : List (Except Empty String × Json) → List String
  | [] => []
  | (.ok name, v) :: rest => (quote name ++ ": " ++ v.indented depth) :: indentedMembers depth rest
  | (.error why, _) :: _ => nomatch why

end

/-- a value over several lines -/
def pretty (v : Json) : String := v.indented 0

end RoadRules.Json
