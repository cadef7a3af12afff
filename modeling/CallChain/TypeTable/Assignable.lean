/-
# Assignability

Whether a value of one type may stand where another type is asked for: equal
types, a primitive that widens, a class or interface below the other, arrays
of as many dimensions with assignable elements, any array where the type
above all classes is asked for. Arguments of types do not count. What is above
a class or interface is a parameter; a table of types says it for its own.

Key definitions: `JavaType.assignable`, `TypeTable.assignable`.
-/
import CallChain.TypeTable.Hierarchy

namespace CallChain

namespace JavaType

/-- The primitive types that a primitive type widens to. -/
def wider : String → List String
  | "byte" => ["short", "int", "long", "float", "double"]
  | "short" => ["int", "long", "float", "double"]
  | "char" => ["int", "long", "float", "double"]
  | "int" => ["long", "float", "double"]
  | "long" => ["float", "double"]
  | "float" => ["double"]
  | _ => []

variable (supertypes : JavaType → List String)

/-- Assignability by full names. -/
def namesAssignable (a b : JavaType) : Bool :=
  match a.erasure?, b.erasure? with
  | some x, some y => x == y || y == JavaName.object || (supertypes a).contains y
  | _, _ => false

/-- Assignability of types that are not arrays. -/
def valueAssignable (a b : JavaType) : Bool :=
  a == b ||
    match a, b with
    | .plain x, .plain y => (wider x).contains y
    | _, _ => namesAssignable supertypes a b

/-- Assignability where one of two different types is an array. -/
def arrayAssignable (a b : JavaType) : Bool :=
  if b.dimensions = 0 then 0 < a.dimensions && b.erasure? == some JavaName.object
  else if a.dimensions ≠ b.dimensions then false
  else if a.elementType.isPrimitive || b.elementType.isPrimitive then
    a.elementType == b.elementType
  else valueAssignable supertypes a.elementType b.elementType

/-- Whether a value of type `a` may stand where type `b` is asked for, with
the names of the supertypes that each type has. -/
def assignable (a b : JavaType) : Bool :=
  a == b ||
    if a.isArray || b.isArray then arrayAssignable supertypes a b
    else valueAssignable supertypes a b

end JavaType

/-- Whether a value of type `a` may stand where type `b` is asked for, by the
supertypes that a table has. -/
def TypeTable.assignable (t : TypeTable) (a b : JavaType) : Bool :=
  JavaType.assignable t.supertypes a b

end CallChain
