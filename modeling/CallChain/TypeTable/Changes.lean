/-
# Changes of a table

The ways in which a table of types comes about: a list of declarations is
loaded in place of all before, or a type, a link between two types or a
member is added. What a change mentions is declared after it, and only a load
takes a name away (`mem_names_apply`).

Key definitions: `TableChange`, `TableChange.apply`, `TypeTable.afterChanges`.
-/
import CallChain.TypeTable.Basic

namespace CallChain

/-- A change of a table. -/
inductive TableChange where
  | load (decls : List TypeDecl)
  | declare (d : TypeDecl)
  | addClass (name : String) (superclass : Option String)
  | addInterface (name : String)
  | implement (type interface : String)
  | addMember (type : String) (m : Member)
  | addMethod (type name : String) (result : JavaType)
  | addField (type name : String) (value : JavaType)
  deriving DecidableEq

namespace TableChange

/-- The table after a change. Types, methods and fields that are added by
their names are public. -/
def apply (t : TypeTable) : TableChange → TypeTable
  | load decls => .ofDecls decls
  | declare d => t.declare d
  | addClass name superclass => t.declare { TypeDecl.blank .plainClass name with superclass }
  | addInterface name => t.declare (.blank .interface name)
  | implement type interface => t.implement type interface
  | addMember type m => t.addMember type m
  | addMethod type name result => t.addMember type (.method type name [] result)
  | addField type name value => t.addMember type (.field type name value)

/-- The names of the types that a change mentions. -/
def mentions : TableChange → List String
  | load decls => decls.map (·.name)
  | declare d => [d.name]
  | addClass name _ => [name]
  | addInterface name => [name]
  | implement type interface => [interface, type]
  | addMember type _ => [type]
  | addMethod type _ _ => [type]
  | addField type _ _ => [type]

/-- Whether a change leaves nothing of the table before. -/
def isLoad : TableChange → Bool
  | load _ => true
  | _ => false

/-- After a change its names are declared, and those declared before unless
it is a load. -/
theorem mem_names_apply {t : TypeTable} {c : TableChange} {n : String} :
    n ∈ (c.apply t).names ↔ (c.isLoad = false ∧ n ∈ t.names) ∨ n ∈ c.mentions := by
  cases c <;>
    simp [apply, mentions, isLoad, TypeTable.mem_names_ofDecls, TypeTable.mem_names_declare,
      TypeTable.mem_names_implement, TypeTable.mem_names_addMember, TypeDecl.blank]

end TableChange

/-- The table after changes, one after the other. -/
def TypeTable.afterChanges (t : TypeTable) (cs : List TableChange) : TypeTable :=
  cs.foldl TableChange.apply t

end CallChain
