/-
# Snippets

What an editor shows for a chain and what it inserts. The title has the
labels of the links with a pair of brackets for each dimension. The body has
holes that the user fills in: one for each argument, and one for each index
that takes a value down to what the next link asks for, or the last value
down to the dimensions kept. Holes of one name are numbered from the second
on.

Key definitions: `Snippet`, `Chain.title`, `Chain.bodyPieces`,
`Snippet.ofChain`.
-/
import CallChain.Chain.Basic
import CallChain.Text.LowerCase

namespace CallChain

/-- A piece of a body: text, or a hole with its name, the `nth` of that name
in the body. -/
inductive Piece where
  | text (s : String)
  | hole (name : String) (nth : Nat)
  deriving DecidableEq

/-- A piece as it stands in a body. -/
def Piece.render : Piece → String
  | .text s => s
  | .hole name nth =>
    "$\x7b" ++ name ++ (if nth ≤ 1 then "" else Nat.repr nth) ++ "\x7d"

/-- A piece of a body whose holes are not numbered. -/
inductive Draft where
  | text (s : String)
  | hole (name : String)
  deriving DecidableEq

namespace Draft

/-- How many holes of a name came before, for the names that occurred. -/
abbrev Counts := List (String × Nat)

/-- The counts with one more hole of a name. -/
def count (name : String) : Counts → Counts
  | [] => [(name, 1)]
  | (n, k) :: cs => if n = name then (n, k + 1) :: cs else (n, k) :: count name cs

/-- The holes of the drafts numbered, each name on its own. -/
def number (before : Counts) : List Draft → List Piece
  | [] => []
  | .text s :: ds => .text s :: number before ds
  | .hole name :: ds =>
    .hole name ((before.lookup name).getD 0 + 1) :: number (count name before) ds

/-- The name of the hole for an argument: the simple name of its type, up to
arguments and dimensions, with a small first letter. -/
def holeName (type : JavaType) : String :=
  let name :=
    match type.shortText.toList with
    | [] => ['a', 'r', 'g']
    | c :: cs => Text.lowerCase c ++ cs
  String.ofList (name.takeWhile fun c => c != '<' && c != '[')

/-- Holes for arguments with commas between them. -/
def arguments : List JavaType → List Draft
  | [] => []
  | [type] => [.hole (holeName type)]
  | type :: next :: types => .hole (holeName type) :: .text ", " :: arguments (next :: types)

/-- Brackets around `n` holes for indices. -/
def indices : Nat → List Draft
  | 0 => []
  | n + 1 => .text "[" :: .hole "i" :: .text "]" :: indices n

end Draft

namespace Link

/-- What the first link of a chain is written after. -/
def qualifier (first : Bool) (l : Link) : String := if first && l.ofThis then "this." else ""

/-- The link in a title. -/
def titleText (first : Bool) (l : Link) : String :=
  match l.kind with
  | .field | .localVar => l.qualifier first ++ l.member.name
  | .method => l.member.label

/-- The link in a body, its value taken down by `holes` indices. -/
def drafts (first : Bool) (holes : Nat) (l : Link) : List Draft :=
  match l.kind with
  | .field | .localVar => .text (l.qualifier first ++ l.member.name) :: Draft.indices holes
  | .method =>
    .text (l.member.name ++ "(") :: Draft.arguments l.member.parameterTypes ++
      .text ")" :: Draft.indices holes

/-- How many indices stand after the link in a body: all its dimensions, less
those kept if it is the last. -/
def holes (last : Bool) (keptDims : Nat) (l : Link) : Nat :=
  if last then l.dims - keptDims else l.dims

end Link

namespace Chain

/-- The titles of links, each with its brackets. -/
def titleTexts (first : Bool) : List Link → List String
  | [] => []
  | l :: ls => (l.titleText first ++ Text.copies l.dims "[]") :: titleTexts false ls

/-- The title of a chain. -/
def title (c : Chain) : String := ".".intercalate (titleTexts true c.links)

/-- The bodies of links with dots between them. -/
def bodyDrafts (first : Bool) (keptDims : Nat) : List Link → List Draft
  | [] => []
  | [l] => l.drafts first (l.holes true keptDims)
  | l :: k :: ls =>
    l.drafts first (l.holes false keptDims) ++ .text "." :: bodyDrafts false keptDims (k :: ls)

/-- The body of a chain in pieces. -/
def bodyPieces (c : Chain) : List Piece := Draft.number [] (bodyDrafts true c.keptDims c.links)

/-- The body of a chain. -/
def body (c : Chain) : String := String.join (c.bodyPieces.map Piece.render)

/-- How long a chain is, in words. -/
def lengthText (c : Chain) : String :=
  if c.length = 1 then "1 element" else Nat.repr c.length ++ " elements"

end Chain

/-- What is shown and inserted for a chain. -/
structure Snippet where
  title : String
  body : String
  description : String
  deriving DecidableEq

/-- The snippet of a chain. -/
def Snippet.ofChain (c : Chain) : Snippet :=
  { title := c.title, body := c.body, description := c.lengthText }

end CallChain
