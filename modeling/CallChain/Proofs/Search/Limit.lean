/-
# Searches that share their findings

Several searches may add to the same findings, one after the other, each with
its own limit. A search that can begin stops for its limit exactly if there are
as many chains as it was to find, whoever has found them. It says so before it
looks for a type, or when a chain has made them enough; a chain that is printed
as another is none more, and an interruption is noticed before a trail is
judged. So what holds between two looks is that the search has stopped for its
limit if and only if that is reached (`TellsLimit`).

Key definitions: `SearchState.TellsLimit`, `Turn`, `Turn.run`, `Turn.runAll`,
`Turn.Accounts`.
Key theorems: `SearchState.tellsLimit_search`, `Turn.accounts_run`,
`Turn.limits_accounted`.
-/
import CallChain.Proofs.Search.Course

namespace CallChain

namespace SearchState

variable {F : Facts} {L : Limits} {I : Interruptions} {g : Goal} {starts : List Link}

/-- A search has stopped for its limit exactly if that is reached. -/
def TellsLimit (s : SearchState F L) : Prop :=
  s.status = .limitReached ↔ L.maxChains ≤ s.findings.size

theorem TellsLimit.size_lt {s : SearchState F L} (h : s.TellsLimit) (running : s.isStopped = false) :
    s.findings.size < L.maxChains := by
  rw [isStopped_eq_false_iff] at running
  rw [TellsLimit, running] at h
  simpa using h

theorem tellsLimit_of_size_lt {s : SearchState F L} (below : s.findings.size < L.maxChains)
    (status : s.status ≠ .limitReached) : s.TellsLimit :=
  iff_of_false status (Nat.not_le.2 below)

theorem tellsLimit_stop {s : SearchState F L} (full : L.maxChains ≤ s.findings.size) :
    (s.stop .limitReached).TellsLimit :=
  iff_of_true rfl full

theorem status_proceed_ne_limitReached (I : Interruptions) (t : Trail) {s : SearchState F L}
    (running : s.isStopped = false) : (s.proceed I t).status ≠ .limitReached := by
  rw [isStopped_eq_false_iff] at running
  rcases (s.proceed_cases I t).2 with ⟨same, -⟩ | ⟨interrupted, -⟩
  · rw [same, running]
    decide
  · intro h
    rw [h] at interrupted
    cases interrupted

/-- A look keeps it: the search is interrupted before it judges the trail, or
the trail's chain is one too many to go on, or it goes on below its limit. -/
theorem TellsLimit.visit {s : SearchState F L} (h : s.TellsLimit) (I : Interruptions) (g : Goal) :
    (s.visit I g).TellsLimit := by
  cases running : s.isStopped with
  | true => rwa [visit_of_isOver (.inl running)]
  | false =>
    cases hp : s.waiting.pop? with
    | none => rwa [visit_of_isOver (.inr (Queue.pop?_eq_none_iff.1 hp))]
    | some p =>
      obtain ⟨t, w⟩ := p
      have below := h.size_lt running
      -- `Look` leaves open how many chains there are when a lookup breaks the search off.
      rw [visit_eq I g running hp]
      simp only
      split
      · exact tellsLimit_of_size_lt below (by simp [stop])
      · split
        · exact tellsLimit_of_size_lt below (by simp [stop])
        · split
          · rename_i full
            rw [Bool.and_eq_true, decide_eq_true_eq] at full
            exact tellsLimit_stop full.2
          · rename_i notFull
            refine tellsLimit_of_size_lt ?_ (status_proceed_ne_limitReached I t running)
            rw [(proceed_cases I t _).1]
            cases accepted : F.accepts L g t with
            | true => simpa [accepted] using notFull
            | false => simpa [Facts.judge, accepted] using below

theorem tellsLimit_explore {s : SearchState F L} (below : s.findings.size < L.maxChains)
    (running : s.isStopped = false) (starts : List Link) (g : Goal) :
    (s.explore I starts g).TellsLimit := by
  obtain ⟨n, hn⟩ := explore_eq_visitTimes I starts g s
  have hstart : (s.enter starts).TellsLimit := by
    rw [isStopped_eq_false_iff] at running
    exact tellsLimit_of_size_lt below (by simp [enter, running])
  rw [hn]
  exact visitTimes_preserves (fun u hu => hu.visit I g) n hstart

/-- A search for several types tells of its limit if it is below it, or if there
is a type before which it can notice that it is not. -/
theorem tellsLimit_pursue (types : List JavaType) {s : SearchState F L}
    (running : s.isStopped = false) (h : types ≠ [] ∨ s.findings.size < L.maxChains) :
    (s.pursue I starts types).TellsLimit := by
  induction types generalizing s with
  | nil =>
    have below : s.findings.size < L.maxChains := by simpa using h
    rw [isStopped_eq_false_iff] at running
    exact tellsLimit_of_size_lt below (by simp [pursue, running])
  | cons type types ih =>
    rw [pursue]
    split
    · rename_i full
      exact tellsLimit_stop full
    · rename_i room
      have below : s.findings.size < L.maxChains := Nat.lt_of_not_le room
      split
      · exact ih running (.inr below)
      · have hexplore := tellsLimit_explore (I := I) below running starts (Goal.ofType type)
        simp only
        split
        · exact hexplore
        · rename_i goesOn
          have running' : (s.explore I starts (Goal.ofType type)).isStopped = false := by
            simpa using goesOn
          exact ih running' (.inr (hexplore.size_lt running'))

/-- A search that can begin tells of its limit, whatever was found before. -/
theorem tellsLimit_search {types : List JavaType} (limit : 1 ≤ L.maxChains) (hstarts : starts ≠ [])
    (htypes : types ≠ []) (I : Interruptions) (s : SearchState F L) :
    (s.search I starts types).TellsLimit := by
  have begins : ¬ (L.maxChains = 0 || starts.isEmpty) = true := by
    rw [Bool.or_eq_true, decide_eq_true_eq, List.isEmpty_iff, not_or]
    exact ⟨by omega, hstarts⟩
  rw [search_eq, if_neg begins]
  exact tellsLimit_pursue types rfl (.inl htypes)

theorem findings_prefix_search (I : Interruptions) (starts : List Link) (types : List JavaType)
    (s : SearchState F L) : s.findings.toList <+: (s.search I starts types).findings.toList :=
  (Moment.first types s.begun).findings_prefix_search

end SearchState

/-! ### Turns -/

/-- One search of several that add to the same findings: what it knows, how far
it may go, what it has looked up before, whether it is called off from the
first, and what is asked of it. -/
structure Turn where
  facts : Facts
  limits : Limits
  memo : Memo facts limits := .empty
  cancelled : Bool := false
  starts : List Link
  types : List JavaType
  interruptions : Interruptions

namespace Turn

/-- The search before a turn that takes up the given findings. -/
def ready (c : Turn) (f : Findings) : SearchState c.facts c.limits :=
  { memo := c.memo, findings := f, cancelled := c.cancelled }

/-- The search after the turn. -/
def run (c : Turn) (f : Findings) : SearchState c.facts c.limits :=
  (c.ready f).search c.interruptions c.starts c.types

/-- The findings after the turns of a list. -/
def runAll (turns : List Turn) (f : Findings) : Findings :=
  turns.foldl (fun f c => (c.run f).findings) f

/-- Every search is a turn that takes up what has been found and looked up, and
the order to call it off. -/
theorem search_eq_run {F : Facts} {L : Limits} (s : SearchState F L) (I : Interruptions)
    (starts : List Link) (types : List JavaType) :
    s.search I starts types =
      run { facts := F, limits := L, memo := s.memo, cancelled := s.cancelled, starts, types,
            interruptions := I } s.findings :=
  rfl

/-- A turn can begin: a chain is asked for, of a type, from a start. -/
structure CanBegin (c : Turn) : Prop where
  limit : 1 ≤ c.limits.maxChains
  starts : c.starts ≠ []
  types : c.types ≠ []

/-- A turn keeps what was found, goes no further than to its limit, and tells
whether that is reached. -/
structure Accounts (c : Turn) (f : Findings) : Prop where
  kept : f.toList <+: (c.run f).findings.toList
  size_le : (c.run f).findings.size ≤ max f.size c.limits.maxChains
  limitReached_iff :
    (c.run f).status = .limitReached ↔ c.limits.maxChains ≤ (c.run f).findings.size

theorem prefix_run (c : Turn) (f : Findings) : f.toList <+: (c.run f).findings.toList :=
  SearchState.findings_prefix_search c.interruptions c.starts c.types (c.ready f)

theorem size_run_le (c : Turn) (f : Findings) :
    (c.run f).findings.size ≤ max f.size c.limits.maxChains :=
  SearchState.size_findings_search_le c.interruptions c.starts c.types (c.ready f)

theorem accounts_run {c : Turn} (h : c.CanBegin) (f : Findings) : c.Accounts f where
  kept := c.prefix_run f
  size_le := c.size_run_le f
  limitReached_iff := SearchState.tellsLimit_search h.limit h.starts h.types c.interruptions (c.ready f)

theorem runAll_cons (c : Turn) (turns : List Turn) (f : Findings) :
    runAll (c :: turns) f = runAll turns (c.run f).findings := rfl

theorem prefix_runAll (turns : List Turn) (f : Findings) : f.toList <+: (runAll turns f).toList := by
  induction turns generalizing f with
  | nil => exact List.prefix_rfl
  | cons c turns ih =>
    rw [runAll_cons]
    exact (c.prefix_run f).trans (ih _)

theorem size_runAll_le {turns : List Turn} {most : Nat}
    (within : ∀ c ∈ turns, c.limits.maxChains ≤ most) {f : Findings} (few : f.size ≤ most) :
    (runAll turns f).size ≤ most := by
  induction turns generalizing f with
  | nil => exact few
  | cons c turns ih =>
    rw [List.forall_mem_cons] at within
    have hsize := c.size_run_le f
    rw [runAll_cons]
    exact ih within.2 (by omega)

/-- **Limits are accounted for.** Whatever was found before, each of several
turns that can begin keeps what it finds there, leaves no more chains than there
were or as many as its limit allows, and has stopped for its limit exactly if
there are as many then. After all of them what was found at first is still in its
place, and there are no more chains than the widest limit allows. -/
theorem limits_accounted (turns : List Turn) (h : ∀ c ∈ turns, c.CanBegin) (f : Findings) :
    (∀ (n : Nat) (c : Turn), turns[n]? = some c → c.Accounts (runAll (turns.take n) f)) ∧
    f.toList <+: (runAll turns f).toList ∧
    ∀ most, f.size ≤ most → (∀ c ∈ turns, c.limits.maxChains ≤ most) →
      (runAll turns f).size ≤ most := by
  refine ⟨fun n c hc => ?_, prefix_runAll turns f, fun most few within => size_runAll_le within few⟩
  exact accounts_run (h c (List.mem_of_getElem? hc)) _

end Turn

namespace Circle

/-- A search for values of type `A` that makes up to `n` chains of what is found,
and is called off before its look number `k`. -/
def turn (n k : Nat) : Turn where
  facts := facts
  limits := { limits with maxChains := n }
  starts := [start "x", start "y"]
  types := [.named "A"]
  interruptions := { cancelledAt := fun i => i == k }

theorem canBegin_turn {n : Nat} (h : 1 ≤ n) (k : Nat) : (turn n k).CanBegin :=
  ⟨h, List.cons_ne_nil _ _, List.cons_ne_nil _ _⟩

/-- After a search that found as many as it was to and one that was called off
when it had found nothing new, a third has more than enough from the first. -/
theorem turns_accounted :
    (∀ c ∈ [turn 3 40, turn 5 2, turn 2 40], c.CanBegin) ∧
    (turn 2 40).Accounts (Turn.runAll [turn 3 40, turn 5 2] .empty) ∧
    (Turn.runAll [turn 3 40, turn 5 2] .empty).toList.map Chain.printed = ["x", "y", "x.bs.a"] ∧
    ((turn 5 2).run (Turn.runAll [turn 3 40] .empty)).status = .cancelled ∧
    ((turn 2 40).run (Turn.runAll [turn 3 40, turn 5 2] .empty)).status = .limitReached := by
  have hbegin : ∀ c ∈ [turn 3 40, turn 5 2, turn 2 40], c.CanBegin := by
    simp only [List.forall_mem_cons, List.not_mem_nil, false_implies, implies_true, and_true]
    exact ⟨canBegin_turn (by decide) 40, canBegin_turn (by decide) 2, canBegin_turn (by decide) 40⟩
  obtain ⟨haccounts, -, -⟩ := Turn.limits_accounted _ hbegin .empty
  exact ⟨hbegin, haccounts 2 (turn 2 40) rfl, by decide, by decide, by decide⟩

end Circle

end CallChain
