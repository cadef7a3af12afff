/-
# Limits of a search

How many chains a search may find, how long they may be, which members it
leaves out, and how long it may take. Members and types are left out by the
start of their key or signature; an empty start leaves out nothing.

Key definitions: `Duration`, `Limits`, `Limits.excludes`.
-/
import CallChain.Text.Pieces

namespace CallChain

/-- A length of time, to the billionth of a second. -/
structure Duration where
  secs : Nat
  nanos : Nat
  nanos_lt : nanos < 1000000000 := by decide
  deriving DecidableEq

/-- The limits of a search. -/
structure Limits where
  maxChains : Nat
  minLength : Nat
  maxLength : Nat
  excluded : List String
  timeout : Duration
  deriving DecidableEq

/-- Whether a key or signature is left out. -/
def Limits.excludes (l : Limits) (key : String) : Bool :=
  l.excluded.any fun start => start != "" && Text.startsWith key start

end CallChain
