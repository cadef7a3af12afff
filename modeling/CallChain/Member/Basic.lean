/-
# Members

Fields, methods and constructors of a type, and local variables. The `key`
of a member tells it from all others; the `slot` says which member of a
supertype it takes the place of; the `label` is what a reader sees.

Key definitions: `Member`, `Member.key`, `Member.slot`, `Member.label`,
`Member.access`.
-/
import CallChain.JavaType.Text

namespace CallChain

/-- What a member is. -/
inductive MemberKind where
  | field
  | method
  | constructor
  | localVar
  deriving DecidableEq

/-- Who may use a member. -/
inductive Access where
  | everyone
  | subtypes
  | samePackage
  | sameType
  deriving DecidableEq

/-- A parameter of a method. -/
structure Parameter where
  name : String
  type : JavaType
  isVarargs : Bool := false
  deriving DecidableEq

/-- A member: its type is the type of its value or of what it returns. -/
structure Member where
  name : String
  kind : MemberKind
  owner : Option String := none
  type : JavaType
  parameters : Option (List Parameter) := none
  modifiers : List String := []
  deriving DecidableEq

namespace Member

/-- A public field. -/
def field (owner name : String) (type : JavaType) : Member :=
  { name, kind := .field, owner := some owner, type, modifiers := ["public"] }

/-- Parameters of the given types, named by their positions. -/
def positional (types : List JavaType) : List Parameter :=
  types.zipIdx.map fun (type, i) => { name := "arg" ++ Nat.repr i, type }

/-- A public method. -/
def method (owner name : String) (parameters : List JavaType) (type : JavaType) : Member :=
  { name, kind := .method, owner := some owner, type, parameters := some (positional parameters),
    modifiers := ["public"] }

/-- A local variable. -/
def localVar (name : String) (type : JavaType) : Member :=
  { name, kind := .localVar, type }

/-- Whether a modifier is among the member's. -/
def hasModifier (m : Member) (modifier : String) : Bool := m.modifiers.contains modifier

/-- Whether the member belongs to its type and not to a value of it. -/
def isStatic (m : Member) : Bool := m.hasModifier "static"

/-- Who may use the member: the widest of its modifiers counts. -/
def access (m : Member) : Access :=
  if m.hasModifier "public" then .everyone
  else if m.hasModifier "protected" then .subtypes
  else if m.hasModifier "private" then .sameType
  else .samePackage

/-- Whether the member is called with arguments. -/
def isInvocable (m : Member) : Bool := m.kind == .method || m.kind == .constructor

/-- The types of the parameters. -/
def parameterTypes (m : Member) : List JavaType := (m.parameters.getD []).map (·.type)

/-- The signature of the type around the member. -/
def ownerSignature? (m : Member) : Option String := m.owner.map JavaName.signature

/-- The signatures of the parameters in a row. -/
def parameterSignatures (m : Member) : String :=
  String.join (m.parameterTypes.map JavaType.signature)

/-- What tells the member from all others. -/
def key (m : Member) : String :=
  let owner := m.ownerSignature?.getD ""
  match m.kind with
  | .localVar => "#" ++ m.name
  | .field => owner ++ "." ++ m.name ++ ")" ++ m.type.signature
  | .method | .constructor =>
    owner ++ "." ++ m.name ++ "(" ++ m.parameterSignatures ++ ")" ++ m.type.signature

theorem signature_prefix_key {m : Member} {owner : String} (declared : m.owner = some owner)
    (h : m.kind ≠ .localVar) : (JavaName.signature owner).toList <+: m.key.toList := by
  have howner : m.ownerSignature?.getD "" = JavaName.signature owner := by
    simp [ownerSignature?, declared]
  unfold key
  rw [howner]
  cases hkind : m.kind with
  | localVar => exact absurd hkind h
  | field => simp [String.toList_append]
  | method => simp [String.toList_append]
  | constructor => simp [String.toList_append]

/-- The place of the member among the members of its type: a member hides
those of supertypes with the same slot. -/
def slot (m : Member) : String :=
  if m.isInvocable then m.name ++ "(" ++ m.parameterSignatures
  else m.name ++ m.type.signature

/-- The member as a reader sees it. -/
def label (m : Member) : String :=
  if m.isInvocable then
    m.name ++ "(" ++ ", ".intercalate (m.parameterTypes.map JavaType.shortText) ++ ")"
  else m.name

example : (method "p.A" "find" [.named "p.B", .plain "int"] (.named "p.C")).key =
      "Lp/A;.find(Lp/B;I)Lp/C;" ∧
    (field "p.A" "count" (.plain "int")).key = "Lp/A;.count)I" ∧
    (method "p.A" "find" [.named "p.B", .plain "int"] (.named "p.C")).label = "find(B, int)" := by
  decide

end Member

end CallChain
