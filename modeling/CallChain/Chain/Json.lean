/-
# Chains in JSON

A chain and its links are records whose fields must all be there.

Key definitions: `Chain.toJson`, `Chain.ofJson?`.
-/
import CallChain.Chain.Basic
import CallChain.Member.Json

namespace CallChain

/-- The name of a link's kind. -/
def LinkKind.tag : LinkKind → String
  | .field => "Field"
  | .localVar => "LocalVariable"
  | .method => "Method"

/-- The link's kind that a value stands for. -/
def LinkKind.ofJson? (v : Json) : Option LinkKind :=
  match v.tag? false with
  | some "Field" => some .field
  | some "LocalVariable" => some .localVar
  | some "Method" => some .method
  | _ => none

namespace Link

/-- A link in JSON. -/
def toJson (l : Link) : Json :=
  .obj [
    ("member", l.member.toJson),
    ("kind", .str l.kind.tag),
    ("return_type", l.type.toJson),
    ("dimension", .num l.dims),
    ("requires_this", .bool l.ofThis)]

/-- The link that a value stands for. -/
def ofJson? (v : Json) : Option Link := do
  let [member, kind, type, dims, ofThis] ←
    v.slots ["member", "kind", "return_type", "dimension", "requires_this"] | none
  some (ofMember (← member.bind Member.ofJson?) (← kind.bind LinkKind.ofJson?)
    (← type.bind JavaType.ofJson?) (← dims.bind Json.nat?) (← ofThis.bind Json.bool?))

end Link

namespace Chain

/-- A chain in JSON. -/
def toJson (c : Chain) : Json :=
  .obj [("elements", .arr (c.links.map Link.toJson)), ("expected_dimension", .num c.keptDims)]

/-- The chain that a value stands for. -/
def ofJson? (v : Json) : Option Chain := do
  let [links, keptDims] ← v.slots ["elements", "expected_dimension"] | none
  some {
    links := ← links.bind (Json.list? Link.ofJson?)
    keptDims := ← keptDims.bind Json.nat? }

end Chain

end CallChain
