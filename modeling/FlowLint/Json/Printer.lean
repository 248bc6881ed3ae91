import FlowLint.Json.Value
import FlowLint.Text.Hex

/-! # Writing JSON

Two forms of one value: compact, without any space, and pretty, with a member or item on each line
indented by two spaces a level. Texts are written as they are but for quotes, backslashes and control
characters.
-/

namespace FlowLint.Json

/-- Floating-point numbers are positional up to sixteen places before the point and four zeros after
it. -/
def layout : Numeric.Layout := ⟨16, 4⟩

/-- The text of a number. -/
def Number.write : Number → String
  | int n => toString n
  | real x => x.write layout

def escapeChar (c : Char) : List Char :=
  if c = '"' then ['\\', '"']
  else if c = '\\' then ['\\', '\\']
  else if c = '\n' then ['\\', 'n']
  else if c = '\r' then ['\\', 'r']
  else if c = '\t' then ['\\', 't']
  else if c = Char.ofNat 8 then ['\\', 'b']
  else if c = Char.ofNat 12 then ['\\', 'f']
  else if c.toNat < 32 then '\\' :: 'u' :: '0' :: '0' :: Text.byteHex c.toNat.toUInt8
  else [c]

def quote (s : String) : String :=
  String.ofList ('"' :: s.toList.flatMap escapeChar ++ ['"'])

mutual
/-- The value without any space. -/
def compact : Json → String
  | null => "null"
  | bool b => if b then "true" else "false"
  | num n => n.write
  | str s => quote s
  | arr items => "[" ++ compactItems true items
  | obj members => "\x7b" ++ compactMembers true members
/-- Items up to the closing bracket. -/
def compactItems (first : Bool) : List Json → String
  | [] => "]"
  | v :: rest => (if first then "" else ",") ++ compact v ++ compactItems false rest
/-- Members up to the closing brace. -/
def compactMembers (first : Bool) : List (String × Json) → String
  | [] => "\x7d"
  | (k, v) :: rest =>
    (if first then "" else ",") ++ quote k ++ ":" ++ compact v ++ compactMembers false rest
end

def newLine (level : Nat) : String :=
  String.ofList ('\n' :: List.replicate (2 * level) ' ')

mutual
/-- The value on lines of its own, the first line begun already at a level. -/
def prettyAt (level : Nat) : Json → String
  | null => "null"
  | bool b => if b then "true" else "false"
  | num n => n.write
  | str s => quote s
  | arr [] => "[]"
  | arr (v :: rest) => "[" ++ prettyItems level true (v :: rest)
  | obj [] => "\x7b\x7d"
  | obj (m :: rest) => "\x7b" ++ prettyMembers level true (m :: rest)
/-- Items, a line each, up to the closing bracket. -/
def prettyItems (level : Nat) (first : Bool) : List Json → String
  | [] => newLine level ++ "]"
  | v :: rest =>
    (if first then "" else ",") ++ newLine (level + 1) ++ prettyAt (level + 1) v ++
      prettyItems level false rest
/-- Members, a line each, up to the closing brace. -/
def prettyMembers (level : Nat) (first : Bool) : List (String × Json) → String
  | [] => newLine level ++ "\x7d"
  | (k, v) :: rest =>
    (if first then "" else ",") ++ newLine (level + 1) ++ quote k ++ ": " ++
      prettyAt (level + 1) v ++ prettyMembers level false rest
end

/-- The value on several lines, without a line break at the end. -/
def pretty (v : Json) : String :=
  prettyAt 0 v

end FlowLint.Json
