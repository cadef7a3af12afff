/-
# The search

Chains are built breadth first: shorter ones before longer ones, those of a
length in the order of what they extend and of the members on offer. Each
trail in turn is taken as a chain if its value fits the goal, and is extended
by every link that may follow and is not yet in it. Trails are taken until
none waits, the chains found reach the limit, or an interruption is noticed.

`visit` looks at one trail, `sweep` at all that wait, `explore` goes sweep by
sweep for one goal, `pursue` goal by goal. Trails of one sweep have one
length, so that as many sweeps as a chain may have links suffice.

Key definitions: `SearchState`, `SearchState.visit`, `SearchState.explore`,
`SearchState.search`, `SearchOutcome`, `supervisedSearch`.
-/
import CallChain.Search.Expansion
import CallChain.Search.Findings
import CallChain.Search.Interruption
import CallChain.Search.Queue
import CallChain.Search.Trail

namespace CallChain

/-- What a chain is to end in: an element type, and as many dimensions. -/
structure Goal where
  element : JavaType
  dims : Nat

/-- The goal of a value of a type. -/
def Goal.ofType (type : JavaType) : Goal := ⟨type.elementType, type.dimensions⟩

/-- Whether a chain may end in a link: its value has the dimensions of the
goal, and an element that is a reference and fits. -/
def Facts.reaches (F : Facts) (g : Goal) (l : Link) : Bool :=
  let element := l.type.elementType
  g.dims ≤ l.dims && !(element.isPrimitive || element.isVoid) && F.assignable element g.element

/-- The links that a chain may start with. -/
def Limits.openings (L : Limits) (starts : List Link) : List Link :=
  starts.filter fun l => !l.isLeaf && !L.excludes l.key

/-- How many trails may wait before no more are added. -/
def maxWaiting : Nat := 50000

/-- A search between two looks at a trail. The status is `exhausted` as long
as nothing has stopped the search. -/
structure SearchState (F : Facts) (L : Limits) where
  waiting : Queue Trail := .ofList []
  memo : Memo F L := .empty
  findings : Findings := .empty
  visits : Nat := 0
  cancelled : Bool := false
  spent : Bool := false
  status : Status := .exhausted

namespace SearchState

variable {F : Facts} {L : Limits}

/-- Whether something has stopped the search. -/
def isStopped (s : SearchState F L) : Bool := s.status != .exhausted

/-- The search stopped. -/
def stop (s : SearchState F L) (status : Status) : SearchState F L := { s with status }

/-- The search with a chain found, stopped if that makes enough of them. -/
def found (s : SearchState F L) (c : Chain) : SearchState F L :=
  let s := { s with findings := s.findings.push c }
  if L.maxChains ≤ s.findings.size then s.stop .limitReached else s

/-- The search with the extensions of a trail waiting. -/
def enqueue (s : SearchState F L) (t : Trail) (links : List Link) : SearchState F L :=
  { s with waiting := s.waiting.pushAll (t.extensions links) }

/-- The search with a trail extended; what may follow is looked up unless the
memo has it. -/
def extend (I : Interruptions) (t : Trail) (s : SearchState F L) : SearchState F L :=
  let type := t.tail.type.elementType
  match s.memo.get? type with
  | some links => s.enqueue t links
  | none =>
    let incident := I.during type
    match incident.breaks with
    | some b => s.stop b.status
    | none =>
      let links := F.expansion L type
      { s with
        memo := s.memo.add type links rfl
        cancelled := s.cancelled || incident.cancels
        spent := s.spent || incident.spends }.enqueue t links

/-- The search after it has looked at a trail taken from the queue. -/
def consider (I : Interruptions) (g : Goal) (t : Trail) (s : SearchState F L) : SearchState F L :=
  let s := if L.minLength ≤ t.length && F.reaches g t.tail then s.found (t.chain g.dims) else s
  if s.isStopped then s
  else if L.maxLength ≤ t.length || maxWaiting ≤ s.waiting.size then s
  else s.extend I t

/-- The search after its next look at a trail, if it goes on and one waits. -/
def visit (I : Interruptions) (g : Goal) (s : SearchState F L) : SearchState F L :=
  if s.isStopped then s
  else
    match s.waiting.pop? with
    | none => s
    | some (t, waiting) =>
      let n := s.visits
      let s := { s with waiting, visits := n + 1 }
      if s.cancelled || I.cancelledAt n then s.stop .cancelled
      else if s.spent || I.spentAt n then s.stop .timedOut
      else s.consider I g t

/-- The search after `n` looks. -/
def visitTimes (I : Interruptions) (g : Goal) : Nat → SearchState F L → SearchState F L
  | 0, s => s
  | n + 1, s => visitTimes I g n (s.visit I g)

/-- The search after a look at every trail that waits. -/
def sweep (I : Interruptions) (g : Goal) (s : SearchState F L) : SearchState F L :=
  s.visitTimes I g s.waiting.size

/-- The search after `n` sweeps, or fewer if it is over. -/
def sweepTimes (I : Interruptions) (g : Goal) : Nat → SearchState F L → SearchState F L
  | 0, s => s
  | n + 1, s => if s.isStopped || s.waiting.size = 0 then s else sweepTimes I g n (s.sweep I g)

/-- The search with nothing waiting but the trails of one link. -/
def enter (starts : List Link) (s : SearchState F L) : SearchState F L :=
  { s with waiting := .ofList ((L.openings starts).map fun l => { tail := l }) }

/-- The search for one goal. -/
def explore (I : Interruptions) (starts : List Link) (g : Goal) (s : SearchState F L) :
    SearchState F L :=
  (s.enter starts).sweepTimes I g (max 1 L.maxLength)

/-- The search for values of the given types, one after the other; a type
that is left out is passed over. -/
def pursue (I : Interruptions) (starts : List Link) : List JavaType → SearchState F L →
    SearchState F L
  | [], s => s
  | type :: types, s =>
    if L.maxChains ≤ s.findings.size then s.stop .limitReached
    else if L.excludes type.elementType.signature then pursue I starts types s
    else
      let s := s.explore I starts (Goal.ofType type)
      if s.isStopped then s else pursue I starts types s

/-- One search. What was found and looked up before stays, and so does the
order to call it off; its time starts anew. -/
def search (I : Interruptions) (starts : List Link) (types : List JavaType)
    (s : SearchState F L) : SearchState F L :=
  let s := { s with waiting := .ofList [], visits := 0, spent := false, status := .exhausted }
  if L.maxChains = 0 || starts.isEmpty then s else s.pursue I starts types

/-- The search as it was, but with nothing found and not called off. -/
def renew (s : SearchState F L) : SearchState F L := { s with findings := .empty, cancelled := false }

end SearchState

/-- How a search ended and what it found, in the order of finding. -/
structure SearchOutcome where
  status : Status := .exhausted
  chains : List Chain := []

/-- The outcome of a search so far. -/
def SearchState.outcome {F : Facts} {L : Limits} (s : SearchState F L) : SearchOutcome :=
  { status := s.status, chains := s.findings.toList }

/-- A search on its own. -/
def Facts.search (F : Facts) (L : Limits) (I : Interruptions) (starts : List Link)
    (types : List JavaType) : SearchOutcome :=
  (({} : SearchState F L).search I starts types).outcome

/-- A search that somebody waits for, who has what was found up to the moment
when it ends or is given up. It is not started if it cannot find anything. -/
def Facts.supervisedSearch (F : Facts) (L : Limits) (I : Interruptions) (starts : List Link)
    (types : List JavaType) : SearchOutcome :=
  if starts.isEmpty || types.isEmpty || L.maxChains = 0 then {} else F.search L I starts types

end CallChain
