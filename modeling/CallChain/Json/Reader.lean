/-
# Reading JSON

From a text to a `Json` value, by the grammar of RFC 8259: no comments, no
trailing commas, no leading zeros, blanks only between tokens, nothing after
the value. The readers of the parts take the characters still to be read and
return what they read with the rest.

Key definitions: `Json.parse?`, `Json.document?`.
-/
import CallChain.Json.Number

namespace CallChain.Json

/-- The blanks of the grammar. -/
def isGap (c : Char) : Bool := c == ' ' || c == '\t' || c == '\n' || c == '\r'

/-- The characters after the leading blanks. -/
def skipGaps (cs : List Char) : List Char := cs.dropWhile isGap

/-- A unit of a string literal: a character as it stands, or a number of 16
bits written in hexadecimal. -/
inductive StringUnit where
  | char (c : Char)
  | code (n : Nat)

/-- The value of a hexadecimal digit. -/
def hexDigit? (c : Char) : Option Nat :=
  if '0' ≤ c && c ≤ '9' then some (c.toNat - '0'.toNat)
  else if 'a' ≤ c && c ≤ 'f' then some (c.toNat - 'a'.toNat + 10)
  else if 'A' ≤ c && c ≤ 'F' then some (c.toNat - 'A'.toNat + 10)
  else none

/-- The character that a one-letter escape stands for. -/
def shortEscape? : Char → Option Char
  | '"' => some '"'
  | '\\' => some '\\'
  | '/' => some '/'
  | 'b' => some (Char.ofNat 8)
  | 'f' => some (Char.ofNat 12)
  | 'n' => some '\n'
  | 'r' => some '\r'
  | 't' => some '\t'
  | _ => none

/-- The units of a string literal whose opening quote has been read, up to its
closing quote. -/
def readUnits : List Char → Option (List StringUnit × List Char)
  | [] => none
  | '"' :: rest => some ([], rest)
  | '\\' :: 'u' :: a :: b :: c :: d :: rest => do
    let n := ((← hexDigit? a) * 16 + (← hexDigit? b)) * 256 + (← hexDigit? c) * 16 + (← hexDigit? d)
    let (units, rest) ← readUnits rest
    some (.code n :: units, rest)
  | '\\' :: e :: rest => do
    let c ← shortEscape? e
    let (units, rest) ← readUnits rest
    some (.char c :: units, rest)
  | c :: rest =>
    if c.toNat < 0x20 || c == '\\' then none
    else do
      let (units, rest) ← readUnits rest
      some (.char c :: units, rest)

/-- The characters of string units: a high surrogate must be followed by a low
one, and a low one must follow a high one. -/
def unitChars? : List StringUnit → Option (List Char)
  | [] => some []
  | .char c :: us => (unitChars? us).map (c :: ·)
  | .code hi :: .code lo :: us =>
    if 0xD800 ≤ hi && hi < 0xDC00 then
      if 0xDC00 ≤ lo && lo < 0xE000 then
        (unitChars? us).map (Char.ofNat (0x10000 + (hi - 0xD800) * 0x400 + (lo - 0xDC00)) :: ·)
      else none
    else if 0xDC00 ≤ hi && hi < 0xE000 then none
    else (unitChars? (.code lo :: us)).map (Char.ofNat hi :: ·)
  | .code n :: us =>
    if 0xD800 ≤ n && n < 0xE000 then none else (unitChars? us).map (Char.ofNat n :: ·)

/-- A string literal whose opening quote has been read; `none` in the result
for one that is not a text. -/
def readString (cs : List Char) : Option (Option String × List Char) := do
  let (units, rest) ← readUnits cs
  some ((unitChars? units).map String.ofList, rest)

/-- The rest after a given word. -/
def expect? (word : List Char) (cs : List Char) : Option (List Char) :=
  if word.isPrefixOf cs then some (cs.drop word.length) else none

/-- An object of the fields read; unreadable if the name of one is. -/
def ofFields (fields : List (Option String × Json)) : Json :=
  match fields.mapM fun (k, v) => k.map (·, v) with
  | some fs => .obj fs
  | none => .unreadable

mutual

/-- A value at the start of the characters, in at most `fuel` calls. -/
def readValue : Nat → List Char → Option (Json × List Char)
  | 0, _ => none
  | fuel + 1, cs =>
    match skipGaps cs with
    | '"' :: rest => do
      let (s, rest) ← readString rest
      some (match s with | some s => .str s | none => .unreadable, rest)
    | '[' :: rest =>
      match skipGaps rest with
      | ']' :: rest => some (.arr [], rest)
      | rest => do
        let (items, rest) ← readItems fuel rest
        some (.arr items, rest)
    | '\x7b' :: rest =>
      match skipGaps rest with
      | '\x7d' :: rest => some (.obj [], rest)
      | rest => do
        let (fields, rest) ← readFields fuel rest
        some (ofFields fields, rest)
    | 'n' :: rest => (expect? ['u', 'l', 'l'] rest).map (.null, ·)
    | 't' :: rest => (expect? ['r', 'u', 'e'] rest).map (.bool true, ·)
    | 'f' :: rest => (expect? ['a', 'l', 's', 'e'] rest).map (.bool false, ·)
    | cs => readNumber cs

/-- The items of an array, up to its closing bracket. -/
def readItems : Nat → List Char → Option (List Json × List Char)
  | 0, _ => none
  | fuel + 1, cs => do
    let (v, rest) ← readValue fuel cs
    match skipGaps rest with
    | ',' :: rest =>
      let (vs, rest) ← readItems fuel rest
      some (v :: vs, rest)
    | ']' :: rest => some ([v], rest)
    | _ => none

/-- The fields of an object, up to its closing brace. -/
def readFields : Nat → List Char → Option (List (Option String × Json) × List Char)
  | 0, _ => none
  | fuel + 1, cs =>
    match skipGaps cs with
    | '"' :: rest => do
      let (k, rest) ← readString rest
      match skipGaps rest with
      | ':' :: rest =>
        let (v, rest) ← readValue fuel rest
        match skipGaps rest with
        | ',' :: rest =>
          let (fs, rest) ← readFields fuel rest
          some ((k, v) :: fs, rest)
        | '\x7d' :: rest => some ([(k, v)], rest)
        | _ => none
      | _ => none
    | _ => none

end

/-- The value that a text spells. Each call reads a character or is the first
on its level, so twice the length is enough fuel. -/
def parse? (s : String) : Option Json := do
  let cs := s.toList
  let (v, rest) ← readValue (2 * cs.length + 2) cs
  if (skipGaps rest).isEmpty then some v else none

/-- The levels of nesting that a document may have. -/
def maxNesting : Nat := 127

/-- The value of a document: what is nested too deep in it is unreadable. -/
def document? (s : String) : Option Json := (parse? s).map (within maxNesting)

end CallChain.Json
