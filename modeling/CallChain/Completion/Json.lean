/-
# Requests in JSON

A request is a record. Its place is an object with the name of the
alternative in the field "kind" among the alternative's own fields, or an
array of the name and the fields; all of it is held back until the name is
known, so all of it must be readable.

Key definitions: `Request.toJson`, `Request.ofJson?`.
-/
import CallChain.Completion.Request
import CallChain.Member.Json

namespace CallChain

namespace Qualifier

/-- A qualifier in JSON. -/
def toJson : Qualifier → Json
  | .type name => JavaType.taggedJson "Type" (.str name)
  | .field t => JavaType.taggedJson "Field" t.toJson
  | .localVar t => JavaType.taggedJson "Local" t.toJson

/-- The names of the alternatives, in their order. -/
def alternatives : List String := ["Type", "Field", "Local"]

/-- The qualifier that a value stands for, which was held back. -/
def ofHeldJson? (v : Json) : Option Qualifier := do
  let t ← v.tagged? alternatives true
  let content ← t.content
  match t.tag with
  | "Type" => content.str?.map .type
  | "Field" => (JavaType.ofHeldJson? true content).map .field
  | "Local" => (JavaType.ofHeldJson? true content).map .localVar
  | _ => none

end Qualifier

namespace Place

/-- A place in JSON. -/
def toJson : Place → Json
  | .simpleName => .obj [("kind", .str "SingleName")]
  | .memberOf receiver => .obj [("kind", .str "MemberAccess"), ("receiver", receiver.toJson)]
  | .qualified qualifier =>
    .obj [("kind", .str "QualifiedName"), ("qualifier", qualifier.toJson)]
  | .elsewhere => .obj [("kind", .str "Other")]

/-- The name of the only field of an alternative, if it has one. -/
def fieldName? : String → Option String
  | "MemberAccess" => some "receiver"
  | "QualifiedName" => some "qualifier"
  | _ => none

/-- The place of an alternative, given its name and its only field. -/
def ofField? (tag : String) (field : Option Json) : Option Place :=
  match tag, field with
  | "SingleName", _ => some .simpleName
  | "Other", _ => some .elsewhere
  | "MemberAccess", some v => (JavaType.ofHeldJson? true v).map .memberOf
  | "QualifiedName", some v => (Qualifier.ofHeldJson? v).map .qualified
  | _, _ => none

/-- The place that a value stands for. -/
def ofJson? (v : Json) : Option Place :=
  if !v.isReadable then none
  else
    match v with
    | .obj fields =>
      match v.objectSlots ["kind"] with
      | some [some (.str tag)] =>
        match fieldName? tag with
        | none => ofField? tag none
        | some name =>
          if Json.fieldCount name fields = 1 then ofField? tag (Json.field? name fields) else none
      | _ => none
    | .arr (.str tag :: items) =>
      match fieldName? tag, items with
      | none, [] => ofField? tag none
      | some _, [field] => ofField? tag (some field)
      | _, _ => none
    | _ => none

end Place

namespace Request

/-- A request in JSON. -/
def toJson (r : Request) : Json :=
  .obj [
    ("invoking_type", .str r.invokingType),
    ("token", .str r.token),
    ("node", r.place.toJson),
    ("visible_locals", .arr (r.locals.map Member.toJson)),
    ("visible_fields", .arr (r.fields.map Member.toJson)),
    ("visible_methods", .arr (r.methods.map Member.toJson)),
    ("expected_type", Json.ofOption JavaType.toJson r.expected)]

/-- The request that a value stands for. -/
def ofJson? (v : Json) : Option Request := do
  let [invokingType, token, place, locals, fields, methods, expected] ←
    v.slots ["invoking_type", "token", "node", "visible_locals", "visible_fields",
      "visible_methods", "expected_type"] | none
  some {
    invokingType := ← invokingType.bind Json.str?
    token := ← Json.optional "" Json.str? token
    place := ← place.bind Place.ofJson?
    locals := ← Json.optional [] (Json.list? Member.ofJson?) locals
    fields := ← Json.optional [] (Json.list? Member.ofJson?) fields
    methods := ← Json.optional [] (Json.list? Member.ofJson?) methods
    expected := ← Json.optional none (Json.nullable? JavaType.ofJson?) expected }

end Request

end CallChain
