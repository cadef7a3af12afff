/-
# JSON values

A JSON text as a tree. Fields of an object keep their order and may repeat.
A number is an integer of at most 64 bits (`num`) or kept as it is spelled
(`real`). A text may be well formed and still hold a value that has no
meaning (half of a surrogate pair, a number beyond every double, nesting
beyond a limit); such a value is `unreadable`, and does no harm where nobody
looks at it.

Key definitions: `Json`, `Json.within`, `Json.isReadable`.
-/
namespace CallChain

/-- A JSON value. -/
inductive Json where
  | null
  | bool (b : Bool)
  | num (n : Int)
  | real (literal : String)
  | str (s : String)
  | arr (items : List Json)
  | obj (fields : List (String × Json))
  | unreadable

namespace Json

mutual

/-- The value with everything below `depth` levels of arrays and objects made
unreadable. -/
def within : Nat → Json → Json
  | 0, .arr _ => .unreadable
  | 0, .obj _ => .unreadable
  | d + 1, .arr items => .arr (itemsWithin d items)
  | d + 1, .obj fields => .obj (fieldsWithin d fields)
  | _, .null => .null
  | _, .bool b => .bool b
  | _, .num n => .num n
  | _, .real l => .real l
  | _, .str s => .str s
  | _, .unreadable => .unreadable

/-- `within` on the items of an array. -/
def itemsWithin : Nat → List Json → List Json
  | _, [] => []
  | d, v :: vs => within d v :: itemsWithin d vs

/-- `within` on the fields of an object. -/
def fieldsWithin : Nat → List (String × Json) → List (String × Json)
  | _, [] => []
  | d, (k, v) :: fs => (k, within d v) :: fieldsWithin d fs

end

mutual

/-- Whether no part of the value is unreadable. -/
def isReadable : Json → Bool
  | .arr items => itemsReadable items
  | .obj fields => fieldsReadable fields
  | .unreadable => false
  | _ => true

/-- `isReadable` for all items of an array. -/
def itemsReadable : List Json → Bool
  | [] => true
  | v :: vs => isReadable v && itemsReadable vs

/-- `isReadable` for all fields of an object. -/
def fieldsReadable : List (String × Json) → Bool
  | [] => true
  | (_, v) :: fs => isReadable v && fieldsReadable fs

end

/-- The value of the first field of a name. -/
def field? (name : String) : List (String × Json) → Option Json
  | [] => none
  | (k, v) :: fs => if k = name then some v else field? name fs

theorem sizeOf_field?_lt {name : String} {fields : List (String × Json)} {v : Json}
    (h : field? name fields = some v) : sizeOf v < sizeOf fields := by
  induction fields with
  | nil => simp [field?] at h
  | cons f fs ih =>
    obtain ⟨k, w⟩ := f
    rw [field?] at h
    split at h
    · cases h
      simp
      omega
    · have := ih h
      simp
      omega

/-- How many fields have a name. -/
def fieldCount (name : String) (fields : List (String × Json)) : Nat :=
  (fields.map Prod.fst).count name

end Json

end CallChain
