/-
# What a search knows about types

The questions that a search asks about types and members, seen from the place
where the chain is to stand. The answers are fixed: the same question always
has the same answer.

Key definitions: `Facts`, `Facts.link`, `Facts.failing`, `TypeTable.facts`.
-/
import CallChain.Chain.Basic
import CallChain.TypeTable.Assignable
import CallChain.TypeTable.Members

namespace CallChain

/-- The answers to what a search asks: the members of a value or a type, the
type of a member's value, and which types may stand for which. -/
structure Facts where
  members : MemberScope → JavaType → Except LookupError (List Member)
  typeOf : Member → Except LookupError JavaType
  assignable : JavaType → JavaType → Bool

/-- The link to a member, with the type that its value is known to have. -/
def Facts.link (F : Facts) (ofThis : Bool) (m : Member) : Except LookupError Link := do
  let type ← F.typeOf m
  Link.make m type ofThis

/-- The facts if the types of some members cannot be told. -/
def Facts.failing (F : Facts) (failure : Member → Option LookupError) : Facts where
  members := F.members
  typeOf := fun m =>
    match failure m with
    | some e => .error e
    | none => F.typeOf m
  assignable := F.assignable

/-- What a table of types answers at a site. -/
def TypeTable.facts (t : TypeTable) (site : Site) : Facts where
  members := fun scope type => t.visibleMembers scope site type
  typeOf := TypeTable.memberType
  assignable := t.assignable

end CallChain
