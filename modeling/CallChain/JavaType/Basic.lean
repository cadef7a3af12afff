/-
# Types

The types that members have: a plain name (a primitive, void or a type
variable), a class or interface by its full name, one applied to arguments,
an array, or a type nobody could resolve. Arrays may nest in each other;
`dimensions` and `elementType` look through all of them.

Key definitions: `JavaType`, `JavaType.arrayOf`, `JavaType.dimensions`,
`JavaType.elementType`, `JavaType.erasure?`.
-/
import CallChain.JavaName

namespace CallChain

/-- A type. -/
inductive JavaType where
  | plain (name : String)
  | named (name : String)
  | applied (base : JavaType) (args : List JavaType)
  | array (element : JavaType) (dims : Nat)
  | unresolved

namespace JavaType

mutual

/-- Whether two types are equal. -/
def same : JavaType → JavaType → Bool
  | plain a, plain b => a == b
  | named a, named b => a == b
  | applied a as, applied b bs => same a b && sameAll as bs
  | array a m, array b n => same a b && m == n
  | unresolved, unresolved => true
  | _, _ => false

/-- Whether two lists of types are equal. -/
def sameAll : List JavaType → List JavaType → Bool
  | [], [] => true
  | a :: as, b :: bs => same a b && sameAll as bs
  | _, _ => false

end

mutual

theorem same_iff : ∀ {a b : JavaType}, same a b = true ↔ a = b
  | plain a, b => by cases b <;> simp [same]
  | named a, b => by cases b <;> simp [same]
  | applied a as, b => by cases b <;> simp [same, same_iff, sameAll_iff]
  | array a m, b => by cases b <;> simp [same, same_iff]
  | unresolved, b => by cases b <;> simp [same]

theorem sameAll_iff : ∀ {as bs : List JavaType}, sameAll as bs = true ↔ as = bs
  | [], bs => by cases bs <;> simp [sameAll]
  | a :: as, bs => by cases bs <;> simp [sameAll, same_iff, sameAll_iff]

end

instance : DecidableEq JavaType := fun _ _ => decidable_of_iff _ same_iff

/-- The type void. -/
def void : JavaType := plain "void"

/-- The array of `dims` dimensions over a type; the dimensions of an array
add to it. -/
def arrayOf (element : JavaType) (dims : Nat) : JavaType :=
  if dims = 0 then element
  else
    match element with
    | array inner m => array inner (m + dims)
    | t => array t dims

/-- How many dimensions a type has as an array, nested arrays together. -/
def dimensions : JavaType → Nat
  | array element dims => dims + element.dimensions
  | _ => 0

/-- What is left of a type without its dimensions. -/
def elementType : JavaType → JavaType
  | array element _ => element.elementType
  | t => t

/-- The primitive types with their signatures. -/
def primitives : List (String × Char) :=
  [("boolean", 'Z'), ("byte", 'B'), ("char", 'C'), ("short", 'S'), ("int", 'I'), ("long", 'J'),
   ("float", 'F'), ("double", 'D')]

/-- The signature of the primitive type of a name. -/
def primitiveLetter? (name : String) : Option Char := primitives.lookup name

/-- Whether the type is primitive. -/
def isPrimitive : JavaType → Bool
  | plain name => (primitiveLetter? name).isSome
  | _ => false

/-- Whether the type is void. -/
def isVoid : JavaType → Bool
  | plain name => name == "void"
  | _ => false

/-- Whether the type is an array, one of no dimensions included. -/
def isArray : JavaType → Bool
  | array _ _ => true
  | _ => false

/-- The full name of a class or interface, its arguments left out. -/
def erasure? : JavaType → Option String
  | named name => some name
  | applied base _ => base.erasure?
  | _ => none

theorem isArray_elementType : ∀ t : JavaType, t.elementType.isArray = false
  | plain _ => rfl
  | named _ => rfl
  | applied _ _ => rfl
  | array e _ => by
    rw [elementType]
    exact isArray_elementType e
  | unresolved => rfl

theorem dimensions_of_not_isArray {a : JavaType} (h : a.isArray = false) : a.dimensions = 0 := by
  cases a with
  | array element dims => cases h
  | _ => rfl

theorem elementType_of_not_isArray {a : JavaType} (h : a.isArray = false) : a.elementType = a := by
  cases a with
  | array element dims => cases h
  | _ => rfl

theorem dimensions_elementType (t : JavaType) : t.elementType.dimensions = 0 :=
  dimensions_of_not_isArray t.isArray_elementType

theorem elementType_elementType (t : JavaType) : t.elementType.elementType = t.elementType :=
  elementType_of_not_isArray t.isArray_elementType

@[simp]
theorem dimensions_arrayOf (t : JavaType) (n : Nat) :
    (arrayOf t n).dimensions = t.dimensions + n := by
  unfold arrayOf
  split
  · omega
  · cases t with
    | array e m =>
      simp only [dimensions]
      omega
    | _ => simp [dimensions]

@[simp]
theorem elementType_arrayOf (t : JavaType) (n : Nat) :
    (arrayOf t n).elementType = t.elementType := by
  unfold arrayOf
  split
  · rfl
  · cases t <;> simp [elementType]

end JavaType

end CallChain
