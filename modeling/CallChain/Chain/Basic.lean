/-
# Chains

A link is one use of a member in a chain, with the type of its value; a chain
is a row of links, each a member of the value of the one before, and the
number of dimensions that are kept of the last value. Two links are taken for
the same when their keys are equal.

Key definitions: `Link`, `Link.make`, `Link.isLeaf`, `Chain`, `Chain.printed`.
-/
import CallChain.LookupError
import CallChain.Member.Basic

namespace CallChain

/-- What a link uses. -/
inductive LinkKind where
  | field
  | localVar
  | method
  deriving DecidableEq

/-- The use of a member in a chain. The key of the member is kept, as the
search compares it at every extension, but not made before it is asked for:
it is as long as the dimensions of its types are many. -/
structure Link where
  member : Member
  kind : LinkKind
  type : JavaType
  dims : Nat
  ofThis : Bool
  keptKey : Thunk String
  get_keptKey : keptKey.get = member.key

/-- What a link to a member of some kind uses; nothing for a constructor. -/
def LinkKind.ofMember? : MemberKind → Option LinkKind
  | .field => some .field
  | .localVar => some .localVar
  | .method => some .method
  | .constructor => none

namespace Link

/-- The use of a member. -/
def ofMember (member : Member) (kind : LinkKind) (type : JavaType) (dims : Nat) (ofThis : Bool) :
    Link :=
  { member, kind, type, dims, ofThis, keptKey := ⟨fun _ => member.key⟩, get_keptKey := rfl }

/-- The key of the member used. -/
def key (l : Link) : String := l.keptKey.get

theorem key_eq (l : Link) : l.key = l.member.key := l.get_keptKey

/-- The link to a member whose value has the given type; `ofThis` if the
member has to be reached through `this`. -/
def make (m : Member) (type : JavaType) (ofThis : Bool) : Except LookupError Link :=
  match LinkKind.ofMember? m.kind with
  | none => .error (.unsupportedMember m.key)
  | some kind =>
    if type.elementType = .unresolved then .error (.unresolvedType m.key)
    else .ok (ofMember m kind type type.dimensions ofThis)

/-- A link is made for every member but a constructor, with every type whose
element is known. -/
theorem make_eq_ok_iff {m : Member} {type : JavaType} {ofThis : Bool} {l : Link} :
    make m type ofThis = .ok l ↔ ∃ kind, LinkKind.ofMember? m.kind = some kind ∧
      type.elementType ≠ .unresolved ∧ l = ofMember m kind type type.dimensions ofThis := by
  unfold make
  cases LinkKind.ofMember? m.kind with
  | none => simp
  | some kind =>
    by_cases h : type.elementType = .unresolved
    · simp [h]
    · simp [h, eq_comm]

/-- The link is one that is made for a member. -/
def IsMade (l : Link) : Prop := ∃ m type ofThis, make m type ofThis = .ok l

theorem IsMade.kind_eq {l : Link} (h : l.IsMade) :
    LinkKind.ofMember? l.member.kind = some l.kind := by
  obtain ⟨m, type, ofThis, hmake⟩ := h
  obtain ⟨kind, hkind, -, rfl⟩ := make_eq_ok_iff.1 hmake
  exact hkind

theorem IsMade.dims_eq {l : Link} (h : l.IsMade) : l.dims = l.type.dimensions := by
  obtain ⟨m, type, ofThis, hmake⟩ := h
  obtain ⟨kind, -, -, rfl⟩ := make_eq_ok_iff.1 hmake
  rfl

/-- Whether no member can be asked of the link's value: it is void or a
primitive that is not in an array. -/
def isLeaf (l : Link) : Bool :=
  l.dims == 0 && (l.type.elementType.isPrimitive || l.type.elementType.isVoid)

/-- Whether two links use the same member. -/
def sameMember (l k : Link) : Bool := l.key == k.key

end Link

/-- A row of links, with the dimensions kept of the last one's value. -/
structure Chain where
  links : List Link
  keptDims : Nat

namespace Chain

/-- How many links the chain has. -/
def length (c : Chain) : Nat := c.links.length

/-- The chain as a reader sees it. Chains with the same text are taken for
the same. -/
def printed (c : Chain) : String :=
  let labels := ".".intercalate (c.links.map fun l => l.member.label)
  match c.links with
  | l :: _ => if l.ofThis then "this." ++ labels else labels
  | [] => labels

end Chain

end CallChain
