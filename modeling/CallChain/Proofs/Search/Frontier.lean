/-
# The queue stays bounded

A trail is extended only if fewer than `maxWaiting` others wait behind it, but
then by all the links on offer at once. So the queue may grow past that number
by what one look adds, and no further; and it begins with one trail for each
start, however many these are. A trail that is not extended because too many
others wait is judged all the same.

Key definitions: `SearchState.onOffer`, `SearchState.breadth`,
`SearchState.Undisturbed`.
Key theorems: `SearchState.size_waiting_visit_le`,
`SearchState.visit_of_crowded`, `SearchState.frontier_bounded`.
-/
import CallChain.Proofs.Search.Completeness

namespace CallChain

namespace SearchState

variable {F : Facts} {L : Limits} {I : Interruptions} {g : Goal} {starts : List Link}

/-- The links that the next look extends a trail by, as far as the trail does not
use them yet: none if it stops the search before, if the trail is as long as a
chain may be, or if too many others wait. -/
def onOffer (I : Interruptions) (g : Goal) (s : SearchState F L) : List Link :=
  match s.waiting.toList with
  | [] => []
  | t :: rest =>
    if (s.visit I g).isStopped || L.maxLength ≤ t.length || maxWaiting ≤ rest.length then []
    else F.expansion L t.tail.type.elementType

/-- The greatest number of links on offer at one of the next `n` looks. -/
def breadth (I : Interruptions) (g : Goal) : Nat → SearchState F L → Nat
  | 0, _ => 0
  | n + 1, s => max (s.onOffer I g).length (breadth I g n (s.visit I g))

/-- The next look is taken: the search is not called off, and its time is not
up. -/
structure Undisturbed (I : Interruptions) (s : SearchState F L) : Prop where
  cancelled : (s.cancelled || I.cancelledAt s.visits) = false
  spent : (s.spent || I.spentAt s.visits) = false

/-! ### One look -/

theorem onOffer_eq {s : SearchState F L} {t : Trail} {rest : List Trail}
    (next : s.waiting.toList = t :: rest) (goesOn : (s.visit I g).isStopped = false)
    (short : t.length < L.maxLength) (room : rest.length < maxWaiting) :
    s.onOffer I g = F.expansion L t.tail.type.elementType := by
  have hshort : ¬ L.maxLength ≤ t.length := Nat.not_le.2 short
  have hroom : ¬ maxWaiting ≤ rest.length := Nat.not_le.2 room
  unfold onOffer
  simp [next, goesOn, hshort, hroom]

/-- A look takes the first trail from the queue; what it adds stands behind the
others. -/
theorem rest_prefix_visit {s : SearchState F L} {t : Trail} {rest : List Trail}
    (running : s.isStopped = false) (next : s.waiting.toList = t :: rest) :
    rest <+: (s.visit I g).waiting.toList := by
  cases look_visit I g s with
  | rests ended => simp [running, next] at ended
  | halts t' rest' _ next' _ waiting | fills t' rest' _ next' _ waiting =>
    obtain ⟨rfl, rfl⟩ : t = t' ∧ rest = rest' := by simpa [next] using next'
    simp [waiting]
  | goesOn t' rest' _ next' _ waiting =>
    obtain ⟨rfl, rfl⟩ : t = t' ∧ rest = rest' := by simpa [next] using next'
    rw [waiting]
    exact List.prefix_append _ _

/-- The queue is no longer after a look than before, or no longer than it may
get by the links on offer. -/
theorem size_waiting_visit_le (I : Interruptions) (g : Goal) (s : SearchState F L) :
    (s.visit I g).waiting.size ≤ max s.waiting.size (maxWaiting - 1 + (s.onOffer I g).length) := by
  rw [← Queue.length_toList, ← Queue.length_toList]
  cases look_visit I g s with
  | rests ended same =>
    rw [same]
    exact Nat.le_max_left _ _
  | halts t rest running next status waiting | fills t rest running next status waiting =>
    rw [waiting, next, List.length_cons]
    omega
  | goesOn t rest running next status waiting =>
    rw [waiting, next, List.length_append, List.length_cons]
    by_cases hgrows : t.length < L.maxLength ∧ rest.length < maxWaiting
    · have hrunning : (s.visit I g).isStopped = false := isStopped_eq_false_iff.2 status
      have hadded : (F.branches L rest.length t).length ≤ (s.onOffer I g).length := by
        rw [onOffer_eq next hrunning hgrows.1 hgrows.2]
        exact Facts.length_branches_le _ t
      omega
    · have hnone : F.branches L rest.length t = [] := by
        rw [Facts.branches, if_pos]
        simp only [Bool.or_eq_true, decide_eq_true_eq]
        omega
      rw [hnone, List.length_nil]
      omega

/-- A trail that leaves the queue while too many others wait is judged, and not
extended. -/
theorem visit_of_crowded {s : SearchState F L} {t : Trail} {rest : List Trail}
    (running : s.isStopped = false) (next : s.waiting.toList = t :: rest)
    (crowded : maxWaiting ≤ rest.length) (undisturbed : s.Undisturbed I) :
    (s.visit I g).waiting.toList = rest ∧
      (s.visit I g).findings = F.judge L g t s.findings := by
  cases hp : s.waiting.pop? with
  | none =>
    rw [Queue.pop?_eq_none_iff.1 hp] at next
    cases next
  | some p =>
    obtain ⟨t', w⟩ := p
    have hpopped := Queue.toList_of_pop? hp
    rw [next] at hpopped
    obtain ⟨rfl, rfl⟩ := List.cons.inj hpopped
    rw [Queue.length_toList] at crowded
    rw [visit_eq I g running hp]
    simp only [undisturbed.cancelled, undisturbed.spent, Bool.false_eq_true, if_false]
    split
    · exact ⟨rfl, rfl⟩
    · have hstays : (decide (L.maxLength ≤ t.length) || decide (maxWaiting ≤ w.size)) = true := by
        simp [crowded]
      rw [proceed, if_pos hstays]
      exact ⟨rfl, rfl⟩

/-! ### All looks -/

theorem size_waiting_visitTimes_le (n : Nat) (s : SearchState F L) :
    (s.visitTimes I g n).waiting.size ≤ max s.waiting.size (maxWaiting - 1 + s.breadth I g n) := by
  induction n generalizing s with
  | zero => exact Nat.le_max_left _ _
  | succ n ih =>
    have hlook := size_waiting_visit_le I g s
    have hrest := ih (s.visit I g)
    rw [visitTimes, breadth]
    omega

theorem size_waiting_enter_le (starts : List Link) (s : SearchState F L) :
    (s.enter starts).waiting.size ≤ starts.length := by
  rw [← Queue.length_toList, waiting_enter, List.length_map]
  exact List.length_filter_le _ _

/-- **The queue stays bounded.** At every moment of a search for one goal, no
more trails wait than there are starts, or than may wait before one is extended
with the most links that were on offer at a look so far. A look takes the first
trail away and adds to the others behind them, so that no more wait in the midst
of it than after it. A trail behind which too many others wait is not extended,
but if it is accepted its chain is among the findings, unless an interruption is
noticed first. -/
theorem frontier_bounded (I : Interruptions) (starts : List Link) (g : Goal)
    (s : SearchState F L) (n : Nat) :
    let u := (s.enter starts).visitTimes I g n
    u.waiting.size ≤ max starts.length (maxWaiting - 1 + (s.enter starts).breadth I g n) ∧
    ∀ t rest, u.isStopped = false → u.waiting.toList = t :: rest →
      rest <+: (u.visit I g).waiting.toList ∧
      (maxWaiting ≤ rest.length → u.Undisturbed I →
        (u.visit I g).waiting.toList = rest ∧
        (u.visit I g).findings =
          if F.accepts L g t then u.findings.push (t.chain g.dims) else u.findings) := by
  intro u
  have hstart := size_waiting_enter_le starts s
  have hsize : u.waiting.size ≤ _ := size_waiting_visitTimes_le n (s.enter starts)
  refine ⟨by omega, fun t rest running next => ⟨rest_prefix_visit running next, ?_⟩⟩
  intro crowded undisturbed
  exact visit_of_crowded running next crowded undisturbed

end SearchState

namespace Crowd

/-- The goal of a value of type `A`. -/
def wanted : Goal := .ofType (.named "A")

/-- The search when all variables but the last have left the queue. -/
def crowded : SearchState facts limits :=
  (({} : SearchState facts limits).enter starts).visitTimes .none wanted 224

/-- The last variable, as a trail. -/
def last : Trail := { tail := start "y" "A" }

/-- 225 trails wait at first. Behind the last of them there are 50176 others, so
that it is not extended; it is found all the same. -/
theorem last_is_found :
    crowded.waiting.size = 50177 ∧
    crowded.waiting.size ≤ max starts.length (maxWaiting - 1 +
      (({} : SearchState facts limits).enter starts).breadth .none wanted 224) ∧
    (crowded.visit .none wanted).waiting.size = 50176 ∧
    (crowded.visit .none wanted).findings.toList.map Chain.printed = ["y"] := by
  obtain ⟨hruns, hfound, hwait⟩ := visitTimes_trails (g := wanted) fun _ => rfl
  obtain ⟨hsize, hnext⟩ := SearchState.frontier_bounded .none starts wanted
    ({} : SearchState facts limits) 224
  obtain ⟨-, hjudged⟩ := hnext last _ hruns hwait
  have hcrowded : maxWaiting ≤ (trails.flatMap (facts.branches limits 0)).length := by
    rw [length_flatMap_trails]
    decide
  have hcalm := calm_enter.visitTimes wanted 224
  obtain ⟨hwait', hfound'⟩ := hjudged hcrowded
    ⟨by rw [hcalm.cancelled]; rfl, by rw [hcalm.spent]; rfl⟩
  have haccepted : facts.accepts limits wanted last = true := rfl
  refine ⟨?_, ?_, ?_, ?_⟩
  · rw [← Queue.length_toList, crowded, hwait, List.length_cons, length_flatMap_trails]
  · rw [crowded]
    exact hsize
  · rw [← Queue.length_toList, crowded, hwait', length_flatMap_trails]
  · rw [crowded, hfound', haccepted, if_pos rfl, hfound]
    rfl

end Crowd

end CallChain
