/-
# Members in JSON

A member and a parameter are records; the kind of a member is an alternative
without content.

Key definitions: `Member.toJson`, `Member.ofJson?`.
-/
import CallChain.JavaType.Json
import CallChain.Member.Basic

namespace CallChain

/-- The name of a kind. -/
def MemberKind.tag : MemberKind → String
  | .field => "Field"
  | .method => "Method"
  | .constructor => "Constructor"
  | .localVar => "LocalVariable"

/-- The kind that a value stands for. -/
def MemberKind.ofJson? (v : Json) : Option MemberKind :=
  match v.tag? false with
  | some "Field" => some .field
  | some "Method" => some .method
  | some "Constructor" => some .constructor
  | some "LocalVariable" => some .localVar
  | _ => none

namespace Parameter

/-- A parameter in JSON. -/
def toJson (p : Parameter) : Json :=
  .obj [("name", .str p.name), ("type_ref", p.type.toJson), ("is_varargs", .bool p.isVarargs)]

/-- The parameter that a value stands for. -/
def ofJson? (v : Json) : Option Parameter := do
  let [name, type, isVarargs] ← v.slots ["name", "type_ref", "is_varargs"] | none
  some {
    name := ← name.bind Json.str?
    type := ← type.bind JavaType.ofJson?
    isVarargs := ← Json.optional false Json.bool? isVarargs }

end Parameter

namespace Member

/-- A member in JSON. -/
def toJson (m : Member) : Json :=
  .obj [
    ("name", .str m.name),
    ("kind", .str m.kind.tag),
    ("declaring_type", Json.ofOption .str m.owner),
    ("type_ref", m.type.toJson),
    ("parameters", Json.ofOption (fun ps => .arr (ps.map Parameter.toJson)) m.parameters),
    ("modifiers", Json.ofStrings m.modifiers)]

/-- The member that a value stands for. -/
def ofJson? (v : Json) : Option Member := do
  let [name, kind, owner, type, parameters, modifiers] ←
    v.slots ["name", "kind", "declaring_type", "type_ref", "parameters", "modifiers"] | none
  some {
    name := ← name.bind Json.str?
    kind := ← kind.bind MemberKind.ofJson?
    owner := ← Json.optional none (Json.nullable? Json.str?) owner
    type := ← type.bind JavaType.ofJson?
    parameters := ← Json.optional none (Json.nullable? (Json.list? Parameter.ofJson?)) parameters
    modifiers := ← Json.optional [] (Json.list? Json.str?) modifiers }

end Member

end CallChain
