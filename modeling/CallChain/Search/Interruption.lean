/-
# Interruptions

What may end a search before it is through. From outside, it may be called
off or its time may be up, which it notices before it looks at the next
trail. While it looks members up, the lookup may crash, or take so long that
whoever waits for the search gives up on it, or call the search off, or use
up the time that is left.

Key definitions: `Status`, `Incident`, `Interruptions`.
-/
import CallChain.JavaType.Basic

namespace CallChain

/-- How a search ended. -/
inductive Status where
  | exhausted
  | limitReached
  | timedOut
  | cancelled
  | aborted
  deriving DecidableEq

/-- How a lookup may end the search it is made for. -/
inductive Break where
  | crash
  | overrun
  deriving DecidableEq

/-- The status of a search that ends in a lookup. -/
def Break.status : Break → Status
  | .crash => .aborted
  | .overrun => .timedOut

/-- What happens to a search during a lookup: it is called off, its time is
used up, or it ends right there. -/
structure Incident where
  cancels : Bool := false
  spends : Bool := false
  breaks : Option Break := none

/-- What interrupts a search: whether it is called off, and whether its time
is up, before its `n`-th look at a trail, and what happens while it looks up
the members of a type. -/
structure Interruptions where
  cancelledAt : Nat → Bool := fun _ => false
  spentAt : Nat → Bool := fun _ => false
  during : JavaType → Incident := fun _ => {}

/-- Nothing interrupts the search. -/
def Interruptions.none : Interruptions := {}

end CallChain
