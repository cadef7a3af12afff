/-
# Findings in several hands

A search adds to its findings while others may read them, each through a handle
of its own; whoever has a handle may copy it. The findings are locked while a
request is served, so that requests are served one after the other, each as a
whole, in whatever order they get the lock. What may have happened is every row
of steps in which a handle is copied or a request through one is served.

Key definitions: `Findings.Request`, `Findings.serve`, `Shared`, `Shared.Step`,
`Shared.Reached`.
-/
import CallChain.Search.Findings

namespace CallChain

namespace Findings

/-- What is asked of findings: to take a chain, which chains they have, how
many. -/
inductive Request where
  | push (c : Chain)
  | list
  | size

/-- What is answered: whether the chain was new, the chains, their number. -/
inductive Answer where
  | pushed (new : Bool)
  | listed (cs : List Chain)
  | counted (n : Nat)

/-- The answer to a request, and the findings after it. -/
def serve (f : Findings) : Request → Answer × Findings
  | .push c => (.pushed (f.isNew c), f.push c)
  | .list => (.listed f.toList, f)
  | .size => (.counted f.size, f)

end Findings

/-- A request that was served: the handle through which it came, and the
answer. -/
structure Served where
  handle : Nat
  request : Findings.Request
  answer : Findings.Answer

/-- Findings that are shared: how many handles there are, numbered from zero,
and what was served so far, in the order of serving. -/
structure Shared where
  findings : Findings
  handles : Nat
  log : List Served

namespace Shared

/-- No chains, in one hand. -/
def fresh : Shared := { findings := .empty, handles := 1, log := [] }

/-- The findings with one more handle. -/
def copy (s : Shared) : Shared := { s with handles := s.handles + 1 }

/-- The findings after a request through a handle. -/
def serve (s : Shared) (handle : Nat) (request : Findings.Request) : Shared :=
  { s with
    findings := (s.findings.serve request).2
    log := s.log ++ [{ handle, request, answer := (s.findings.serve request).1 }] }

/-- What may happen next: somebody copies a handle, or has the lock and is
served. -/
inductive Step (s : Shared) : Shared → Prop where
  | copies (handle : Nat) (held : handle < s.handles) : Step s s.copy
  | serves (handle : Nat) (held : handle < s.handles) (request : Findings.Request) :
      Step s (s.serve handle request)

/-- What may have become of fresh findings. -/
inductive Reached : Shared → Prop where
  | fresh : Reached fresh
  | step {s s' : Shared} (h : Reached s) (next : Step s s') : Reached s'

end Shared

end CallChain
