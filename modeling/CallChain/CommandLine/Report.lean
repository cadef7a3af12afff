/-
# Reports

What the commands show: proposals and members as tables. Full names of types
are shortened to the initials of their outer packages.

Key definitions: `proposalGrid`, `memberGrid`, `shortenName`.
-/
import CallChain.CommandLine.Grid
import CallChain.Json.Writer
import CallChain.Proposal

namespace CallChain.CommandLine

/-- The initial of a piece of a name, with a dot; nothing for an empty one. -/
def initial (s : String) : String :=
  match s.toList with
  | [] => ""
  | c :: _ => String.ofList [c, '.']

/-- A name with all but its last two pieces shortened to initials. -/
def shortenName (name : String) : String :=
  let parts := Text.split '.' name
  let n := parts.length
  if n ≤ 2 then name
  else String.join ((parts.take (n - 2)).map initial) ++ ".".intercalate (parts.drop (n - 2))

/-- The table of proposals. -/
def proposalGrid (ps : List Proposal) : Grid where
  headings := ["relevance", "title", "body", "elements"]
  rows := ps.map fun p =>
    [Json.intText p.relevance, p.snippet.title, p.snippet.body, p.snippet.description]

/-- The word for a kind of member. -/
def kindWord : MemberKind → String
  | .field => "field"
  | .method => "method"
  | .constructor => "constructor"
  | .localVar => "local"

/-- The table of members. -/
def memberGrid (ms : List Member) : Grid where
  headings := ["kind", "name", "type", "declared_in", "modifiers"]
  rows := ms.map fun m =>
    [kindWord m.kind, m.label, m.type.fullText, (m.owner.map shortenName).getD "-",
     if m.modifiers.isEmpty then "-" else " ".intercalate m.modifiers]

end CallChain.CommandLine
