/-
# Cutting a text

Cuts of a text at a character: all the pieces between separators, the part
before the first or the last of them, the part after the last. Each is a
function on the list of characters, and joining gives the text back
(`joinWith_pieces`).

Key definitions: `Text.startsWith`, `Text.split`, `Text.beforeFirst`,
`Text.beforeLast?`, `Text.afterLast`, `Text.swap`.
-/
namespace CallChain.Text

/-- Whether a text starts with another. -/
def startsWith (s start : String) : Bool := start.toList.isPrefixOf s.toList

theorem startsWith_iff {s start : String} :
    startsWith s start = true ↔ start.toList <+: s.toList := by
  simp [startsWith]

/-- The pieces of `cs` between the characters equal to `sep`; always one more
than there are separators. -/
def pieces (sep : Char) : List Char → List (List Char)
  | [] => [[]]
  | c :: cs =>
    if c = sep then [] :: pieces sep cs
    else
      match pieces sep cs with
      | [] => [[c]]
      | p :: ps => (c :: p) :: ps

theorem pieces_ne_nil (sep : Char) (cs : List Char) : pieces sep cs ≠ [] := by
  cases cs with
  | nil => simp [pieces]
  | cons c cs =>
    rw [pieces]
    split
    · simp
    · split <;> simp

/-- Pieces written one after the other with `sep` between them. -/
def joinWith (sep : Char) : List (List Char) → List Char
  | [] => []
  | [p] => p
  | p :: q :: ps => p ++ sep :: joinWith sep (q :: ps)

/-- Cutting loses nothing. -/
theorem joinWith_pieces (sep : Char) (cs : List Char) : joinWith sep (pieces sep cs) = cs := by
  induction cs with
  | nil => rfl
  | cons c cs ih =>
    rw [pieces]
    split
    · rename_i h
      cases hp : pieces sep cs with
      | nil => exact absurd hp (pieces_ne_nil sep cs)
      | cons p ps => rw [joinWith, ← hp, ih, h]; rfl
    · cases hp : pieces sep cs with
      | nil => exact absurd hp (pieces_ne_nil sep cs)
      | cons p ps =>
        rw [hp] at ih
        cases ps with
        | nil => simpa [joinWith] using ih
        | cons q qs => simpa [joinWith] using ih

/-- The pieces of a text between separators. -/
def split (sep : Char) (s : String) : List String := (pieces sep s.toList).map String.ofList

/-- The part of a text before the first `sep`, all of it if there is none. -/
def beforeFirst (sep : Char) (s : String) : String :=
  String.ofList (s.toList.takeWhile (· ≠ sep))

/-- The part of a text before the last `sep`, if there is one. -/
def beforeLast? (sep : Char) (s : String) : Option String :=
  match s.toList.reverse.dropWhile (· ≠ sep) with
  | [] => none
  | _ :: r => some (String.ofList r.reverse)

/-- The part of a text after the last character that satisfies `p`, all of it
if there is none. -/
def afterLast (p : Char → Bool) (s : String) : String :=
  String.ofList (s.toList.reverse.takeWhile (!p ·)).reverse

/-- The text with every `old` replaced by `new`. -/
def swap (old new : Char) (s : String) : String :=
  String.ofList (s.toList.map fun c => if c = old then new else c)

/-- `n` copies of a text in a row. -/
def copies (n : Nat) (s : String) : String := String.join (List.replicate n s)

end CallChain.Text
