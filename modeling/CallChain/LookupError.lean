/-
# Failed lookups

Why a question about types or members has no answer, with the wording a user
sees.

Key definitions: `LookupError`, `LookupError.message`.
-/
namespace CallChain

/-- Why a lookup failed. -/
inductive LookupError where
  | unresolvedType (name : String)
  | malformedSignature (text : String)
  | inaccessibleMember (key : String)
  | unsupportedMember (key : String)
  | internal (text : String)
  deriving DecidableEq

/-- The wording of a failed lookup. -/
def LookupError.message : LookupError → String
  | .unresolvedType name => "Unresolved type: " ++ name
  | .malformedSignature text => "Malformed signature: " ++ text
  | .inaccessibleMember key => "Inaccessible member: " ++ key
  | .unsupportedMember key => "Unsupported member: " ++ key
  | .internal text => "Internal error: " ++ text

end CallChain
