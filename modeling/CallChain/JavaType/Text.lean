/-
# The texts of a type

A type is written in three ways: as a signature, which keys are built from
(arguments of a type are left out of it), with simple names for a reader, and
with full names.

Key definitions: `JavaType.signature`, `JavaType.shortText`,
`JavaType.fullText`.
-/
import CallChain.JavaType.Basic

namespace CallChain.JavaType

/-- The signature of a type. -/
def signature : JavaType → String
  | plain name =>
    if name = "void" then "V"
    else
      match primitiveLetter? name with
      | some c => String.singleton c
      | none => "T" ++ name ++ ";"
  | named name => JavaName.signature name
  | applied base _ => base.signature
  | array element dims => Text.copies dims "[" ++ element.signature
  | unresolved => "?"

theorem signature_of_erasure? : ∀ {t : JavaType} {name : String}, t.erasure? = some name →
    t.signature = JavaName.signature name
  | named _, _, rfl => rfl
  | applied base _, _, h => signature_of_erasure? (t := base) h

mutual

/-- The type with simple names. -/
def shortText : JavaType → String
  | plain name => name
  | named name => JavaName.simple name
  | applied base args => base.shortText ++ "<" ++ shortTexts args ++ ">"
  | array element dims => element.shortText ++ Text.copies dims "[]"
  | unresolved => "?"

/-- Types with simple names and commas between them. -/
def shortTexts : List JavaType → String
  | [] => ""
  | [t] => t.shortText
  | t :: u :: ts => t.shortText ++ ", " ++ shortTexts (u :: ts)

end

mutual

/-- The type with full names. -/
def fullText : JavaType → String
  | plain name => name
  | named name => name
  | applied base args => base.fullText ++ "<" ++ fullTexts args ++ ">"
  | array element dims => element.fullText ++ Text.copies dims "[]"
  | unresolved => "?"

/-- Types with full names and commas between them. -/
def fullTexts : List JavaType → String
  | [] => ""
  | [t] => t.fullText
  | t :: u :: ts => t.fullText ++ ", " ++ fullTexts (u :: ts)

end

example : (array (applied (named "p.M$E") [plain "T"]) 2).shortText = "E<T>[][]" ∧
    (array (applied (named "p.M$E") [plain "T"]) 2).signature = "[[Lp/M$E;" := by decide

end CallChain.JavaType
