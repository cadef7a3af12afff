/-
# Declarations in JSON

A model is the list of declarations as a document has it, names that repeat
included; its table keeps the last declaration of each name.

Key definitions: `Model`, `Model.toJson`, `Model.ofJson?`, `Model.table`.
-/
import CallChain.Member.Json
import CallChain.TypeTable.Basic

namespace CallChain

/-- The name of a kind of type. -/
def TypeKind.tag : TypeKind → String
  | .plainClass => "Class"
  | .interface => "Interface"
  | .enumeration => "Enum"
  | .annotationType => "Annotation"

/-- The kind of type that a value stands for. -/
def TypeKind.ofJson? (v : Json) : Option TypeKind :=
  match v.tag? false with
  | some "Class" => some .plainClass
  | some "Interface" => some .interface
  | some "Enum" => some .enumeration
  | some "Annotation" => some .annotationType
  | _ => none

namespace TypeDecl

/-- A declaration in JSON. -/
def toJson (d : TypeDecl) : Json :=
  .obj [
    ("fqn", .str d.name),
    ("kind", .str d.kind.tag),
    ("package", Json.ofOption .str d.package),
    ("enclosing_type", Json.ofOption .str d.enclosing),
    ("superclass", Json.ofOption .str d.superclass),
    ("interfaces", Json.ofStrings d.interfaces),
    ("modifiers", Json.ofStrings d.modifiers),
    ("members", .arr (d.members.map Member.toJson))]

/-- The declaration that a value stands for. -/
def ofJson? (v : Json) : Option TypeDecl := do
  let [name, kind, package, enclosing, superclass, interfaces, modifiers, members] ←
    v.slots ["fqn", "kind", "package", "enclosing_type", "superclass", "interfaces", "modifiers",
      "members"] | none
  let text? := Json.nullable? Json.str?
  some {
    name := ← name.bind Json.str?
    kind := ← Json.optional .plainClass TypeKind.ofJson? kind
    package := ← Json.optional none text? package
    enclosing := ← Json.optional none text? enclosing
    superclass := ← Json.optional none text? superclass
    interfaces := ← Json.optional [] (Json.list? Json.str?) interfaces
    modifiers := ← Json.optional [] (Json.list? Json.str?) modifiers
    members := ← Json.optional [] (Json.list? Member.ofJson?) members }

end TypeDecl

/-- The declarations of a document. -/
structure Model where
  types : List TypeDecl := []
  deriving DecidableEq

namespace Model

/-- A model in JSON. -/
def toJson (m : Model) : Json := .obj [("types", .arr (m.types.map TypeDecl.toJson))]

/-- The model that a value stands for. -/
def ofJson? (v : Json) : Option Model := do
  let [types] ← v.slots ["types"] | none
  some { types := ← Json.optional [] (Json.list? TypeDecl.ofJson?) types }

/-- The table of the declarations. -/
def table (m : Model) : TypeTable := .ofDecls m.types

end Model

end CallChain
