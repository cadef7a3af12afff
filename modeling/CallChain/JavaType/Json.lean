/-
# Types in JSON

A type is an alternative with content: `Raw` and `Id` with a name, `Generic`
with a base and arguments, `Array` with an element and its dimensions,
`Unknown` with nothing.

Key definitions: `JavaType.toJson`, `JavaType.ofJson?`.
-/
import CallChain.Json.Fields
import CallChain.JavaType.Basic

namespace CallChain.JavaType

/-- The names of the alternatives, in their order. -/
def alternatives : List String := ["Raw", "Id", "Generic", "Array", "Unknown"]

/-- An alternative and its content. -/
def taggedJson (tag : String) (content : Json) : Json :=
  .obj [("kind", .str tag), ("data", content)]

mutual

/-- A type in JSON. -/
def toJson : JavaType → Json
  | plain name => taggedJson "Raw" (.str name)
  | named name => taggedJson "Id" (.str name)
  | applied base args =>
    taggedJson "Generic" (.obj [("base", base.toJson), ("args", .arr (listToJson args))])
  | array element dims =>
    taggedJson "Array" (.obj [("element", element.toJson), ("dimensions", .num dims)])
  | unresolved => .obj [("kind", .str "Unknown")]

/-- Types in JSON. -/
def listToJson : List JavaType → List Json
  | [] => []
  | t :: ts => t.toJson :: listToJson ts

end

mutual

/-- The type that a value stands for; `held` for a value that was held back
by the one around it. -/
def ofHeldJson? (held : Bool) (v : Json) : Option JavaType :=
  match ht : v.tagged? alternatives held with
  | none => none
  | some t =>
    match t.tag, hc : t.content with
    | "Raw", some (.str name) => some (plain name)
    | "Id", some (.str name) => some (named name)
    | "Generic", some c =>
      match hs : c.objectSlots ["base", "args"] with
      | some [some base, some (.arr args)] =>
        have := Json.sizeOf_content_lt ht hc
        have := Json.sizeOf_slot_lt (w := base) hs (by simp)
        have := Json.sizeOf_slot_lt (w := .arr args) hs (by simp)
        match ofHeldJson? t.held base, listOfHeldJson? t.held args with
        | some base, some args => some (applied base args)
        | _, _ => none
      | _ => none
    | "Array", some c =>
      match hs : c.objectSlots ["element", "dimensions"] with
      | some [some element, some (.num (.ofNat dims))] =>
        have := Json.sizeOf_content_lt ht hc
        have := Json.sizeOf_slot_lt (w := element) hs (by simp)
        (ofHeldJson? t.held element).map (array · dims)
      | _ => none
    | "Unknown", none => some unresolved
    | "Unknown", some .null => some unresolved
    | _, _ => none
termination_by sizeOf v
decreasing_by all_goals simp_all; omega

/-- The types that values stand for. -/
def listOfHeldJson? (held : Bool) (vs : List Json) : Option (List JavaType) :=
  match vs with
  | [] => some []
  | v :: vs =>
    match ofHeldJson? held v, listOfHeldJson? held vs with
    | some t, some ts => some (t :: ts)
    | _, _ => none
termination_by sizeOf vs

end

/-- The type that a value stands for. -/
def ofJson? (v : Json) : Option JavaType := ofHeldJson? false v

end CallChain.JavaType
