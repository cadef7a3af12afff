/-
# A table that goes wrong

A table of types whose answers are disturbed in named places: members whose
type cannot be told or is another, types whose members cannot be listed, and
types at which a lookup crashes, stalls or calls the search off. Everything
else it answers as the table does.

Key definitions: `Hazards`, `Hazards.facts`, `Hazards.interruptions`,
`Hazards.supervisedInterruptions`.
-/
import CallChain.Search.Run

namespace CallChain

/-- Where a table goes wrong. -/
structure Hazards where
  failingMembers : List String := []
  failingTypes : List (String × LookupError) := []
  memberTypes : List (String × JavaType) := []
  crashAt : Option String := none
  stallAt : Option String := none
  cancelAt : Option String := none

/-- How much time a search has: no end of it, enough unless a lookup stalls,
or none. -/
inductive Budget where
  | unlimited
  | brief
  | spent
  deriving DecidableEq

namespace Hazards

/-- The members declared in a type, if they can be listed. -/
def declared (h : Hazards) (t : TypeTable) (name : String) : Except LookupError (List Member) :=
  match h.failingTypes.lookup name with
  | some e => .error e
  | none => t.declared name

/-- The type of a member's value, if it can be told. -/
def typeOf (h : Hazards) (m : Member) : Except LookupError JavaType :=
  if m.name ∈ h.failingMembers then .error (.internal ("cannot resolve " ++ m.key))
  else
    match h.memberTypes.lookup m.key with
    | some type => .ok type
    | none => TypeTable.memberType m

/-- What the table answers at a site. -/
def facts (h : Hazards) (t : TypeTable) (site : Site) : Facts where
  members := fun scope type => t.membersBy (h.declared t) scope site type
  typeOf := h.typeOf
  assignable := t.assignable

/-- The types whose declared members are looked up, in order, for the members
of a value: all above it, unless those of the type itself cannot be listed. -/
def consulted (h : Hazards) (t : TypeTable) (type : JavaType) : List String :=
  match t.supertypes type with
  | [] => []
  | root :: above =>
    match h.declared t root with
    | .ok _ => root :: above
    | .error _ => [root]

/-- What interrupts a search that runs on its own. Crashes do not concern
it, and a stalled lookup only uses up the time of one that has little. -/
def interruptions (h : Hazards) (t : TypeTable) (budget : Budget) (cancelled : Bool) :
    Interruptions where
  cancelledAt := fun _ => cancelled
  spentAt := fun _ => budget == .spent
  during := fun type =>
    { cancels := (h.consulted t type).any (h.cancelAt == some ·)
      spends := budget == .brief && (h.consulted t type).any (h.stallAt == some ·) }

/-- What interrupts a search that somebody waits for: the first crash or
stall ends it. -/
def supervisedInterruptions (h : Hazards) (t : TypeTable) (budget : Budget) : Interruptions where
  spentAt := fun _ => budget == .spent
  during := fun type =>
    { breaks := (h.consulted t type).findSome? fun name =>
        if h.crashAt == some name then some .crash
        else if h.stallAt == some name then some .overrun
        else none }

theorem facts_none (t : TypeTable) (site : Site) : ({} : Hazards).facts t site = t.facts site := rfl

/-- A table whose only hazards are members answers as it is, but for the types
of these. -/
theorem facts_failingMembers (t : TypeTable) (site : Site) (names : List String) :
    ({ failingMembers := names } : Hazards).facts t site = (t.facts site).failing fun m =>
      if m.name ∈ names then some (.internal ("cannot resolve " ++ m.key)) else none := by
  have htype : ∀ m, ({ failingMembers := names } : Hazards).typeOf m =
      ((t.facts site).failing fun m =>
        if m.name ∈ names then some (.internal ("cannot resolve " ++ m.key)) else none).typeOf m := by
    intro m
    by_cases h : m.name ∈ names <;> simp [typeOf, Facts.failing, TypeTable.facts, h]
  rw [facts, funext htype]
  rfl

end Hazards

end CallChain
