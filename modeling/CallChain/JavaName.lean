/-
# Names of types

A type's full name is written with dots between packages and, in a nested
type, `$` after the type around it. Its signature writes the dots as slashes
and stands between `L` and `;`.

Key definitions: `JavaName.signature`, `JavaName.signatureStart`,
`JavaName.simple`, `JavaName.package`, `JavaName.outermost`.
-/
import CallChain.Text.Blank
import CallChain.Text.Pieces

namespace CallChain.JavaName

/-- The name of the type above all classes. -/
def object : String := "java.lang.Object"

/-- The signature of the type of a name. -/
def signature (name : String) : String := "L" ++ Text.swap '.' '/' name ++ ";"

/-- What the signature of a type starts with, and also those of the types
nested in it; blanks around the name do not count. -/
def signatureStart (name : String) : String := "L" ++ Text.swap '.' '/' (Text.trim name)

/-- The signature of a type starts as it should if its name has no blanks to
trim. -/
theorem signatureStart_prefix {name : String} (h : Text.trim name = name) :
    (signatureStart name).toList <+: (signature name).toList := by
  have hend : (signature name).toList = (signatureStart name).toList ++ [';'] := by
    simp [signature, signatureStart, h, String.toList_append]
  rw [hend]
  exact List.prefix_append _ _

/-- The part of a name after its last dot or `$`. -/
def simple (name : String) : String := Text.afterLast (fun c => c == '.' || c == '$') name

/-- The part of a name before its first `$`. -/
def outermost (name : String) : String := Text.beforeFirst '$' name

/-- The package of a type: the part of its outermost type's name before the
last dot, empty if there is no dot. -/
def package (name : String) : String := (Text.beforeLast? '.' (outermost name)).getD ""

example : package "p.q.T$U.V" = "p.q" ∧ package "T" = "" ∧ simple "p.T$U" = "U" := by decide

end CallChain.JavaName
