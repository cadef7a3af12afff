/-
# Writing JSON

A value as text, on one line (`Json.compact`) or one field or item a line,
indented by two blanks a level (`Json.pretty`). Characters below U+0020, the
quote and the backslash are escaped, all others stand for themselves.

Key definitions: `Json.compact`, `Json.pretty`.
-/
import CallChain.Json.Value

namespace CallChain.Json

/-- A hexadecimal digit. -/
def hexDigit (n : Nat) : Char := Char.ofNat (if n < 10 then '0'.toNat + n else 'a'.toNat + (n - 10))

/-- A character as it stands in a string literal. -/
def escape (c : Char) : List Char :=
  if c = '"' then ['\\', '"']
  else if c = '\\' then ['\\', '\\']
  else if c = '\n' then ['\\', 'n']
  else if c = '\r' then ['\\', 'r']
  else if c = '\t' then ['\\', 't']
  else if c.toNat = 8 then ['\\', 'b']
  else if c.toNat = 12 then ['\\', 'f']
  else if c.toNat < 0x20 then ['\\', 'u', '0', '0', hexDigit (c.toNat / 16), hexDigit (c.toNat % 16)]
  else [c]

/-- A string literal. -/
def quoted (s : String) : String := "\"" ++ String.ofList (s.toList.flatMap escape) ++ "\""

/-- The text of an integer. -/
def intText (n : Int) : String :=
  match n with
  | .ofNat n => Nat.repr n
  | .negSucc n => "-" ++ Nat.repr (n + 1)

/-- The text of a value that is neither an array nor an object; an unreadable
value is written as null. -/
def leafText : Json → String
  | .bool true => "true"
  | .bool false => "false"
  | .num n => intText n
  | .real l => l
  | .str s => quoted s
  | _ => "null"

mutual

/-- The value on one line without blanks. -/
def compact : Json → String
  | .arr items => "[" ++ compactItems items ++ "]"
  | .obj fields => "\x7b" ++ compactFields fields ++ "\x7d"
  | v => leafText v

/-- Items with commas between them. -/
def compactItems : List Json → String
  | [] => ""
  | [v] => compact v
  | v :: w :: vs => compact v ++ "," ++ compactItems (w :: vs)

/-- Fields with commas between them. -/
def compactFields : List (String × Json) → String
  | [] => ""
  | [(k, v)] => quoted k ++ ":" ++ compact v
  | (k, v) :: f :: fs => quoted k ++ ":" ++ compact v ++ "," ++ compactFields (f :: fs)

end

/-- The start of a line on a level. -/
def newLine (level : Nat) : String := "\n" ++ String.ofList (List.replicate (2 * level) ' ')

mutual

/-- The value with its parts indented below `level`. -/
def prettyAt (level : Nat) : Json → String
  | .arr [] => "[]"
  | .arr (v :: vs) => "[" ++ prettyItems (level + 1) (v :: vs) ++ newLine level ++ "]"
  | .obj [] => "\x7b\x7d"
  | .obj (f :: fs) => "\x7b" ++ prettyFields (level + 1) (f :: fs) ++ newLine level ++ "\x7d"
  | v => leafText v

/-- Items, one a line. -/
def prettyItems (level : Nat) : List Json → String
  | [] => ""
  | [v] => newLine level ++ prettyAt level v
  | v :: w :: vs => newLine level ++ prettyAt level v ++ "," ++ prettyItems level (w :: vs)

/-- Fields, one a line. -/
def prettyFields (level : Nat) : List (String × Json) → String
  | [] => ""
  | [(k, v)] => newLine level ++ quoted k ++ ": " ++ prettyAt level v
  | (k, v) :: f :: fs =>
    newLine level ++ quoted k ++ ": " ++ prettyAt level v ++ "," ++ prettyFields level (f :: fs)

end

/-- The value over several lines. -/
def pretty (v : Json) : String := prettyAt 0 v

end CallChain.Json
