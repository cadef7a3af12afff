/-
# Interruptions only cut off

Two searches from one place, one of which nothing interrupts, look at the same
trails and find the same chains until the other is interrupted. From then on
the other stands still while the undisturbed one goes on finding. So whatever
interrupts a search, and wherever it does, what it has found is the beginning
of what it would have found; and if it ends without an interruption, nothing
is missing.

Key definitions: `SearchState.Calm`, `SearchState.Alike`, `SearchState.Behind`.
Key theorem: `Facts.interruptions_truncate`.
-/
import CallChain.Proofs.Search.Course

namespace CallChain

variable {F : Facts} {L : Limits}

namespace SearchState

variable {I : Interruptions} {g : Goal} {starts : List Link}

/-! ### The undisturbed search -/

/-- Nothing has interrupted the search, and nothing it knows of is about to. -/
structure Calm (s : SearchState F L) : Prop where
  cancelled : s.cancelled = false
  spent : s.spent = false
  status : s.status.isInterruption = false

theorem Calm.extend {s : SearchState F L} (h : s.Calm) (t : Trail) : (s.extend .none t).Calm := by
  simp only [SearchState.extend]
  split
  · exact ⟨h.cancelled, h.spent, h.status⟩
  · exact ⟨by simp [enqueue, Interruptions.none, h.cancelled],
      by simp [enqueue, Interruptions.none, h.spent], h.status⟩

theorem Calm.proceed {s : SearchState F L} (h : s.Calm) (t : Trail) : (s.proceed .none t).Calm := by
  unfold SearchState.proceed
  split
  · exact h
  · exact h.extend t

theorem Calm.visit {s : SearchState F L} (h : s.Calm) (g : Goal) : (s.visit .none g).Calm := by
  cases running : s.isStopped with
  | true => rwa [visit_of_isOver (.inl running)]
  | false =>
    cases hp : s.waiting.pop? with
    | none => rwa [visit_of_isOver (.inr (Queue.pop?_eq_none_iff.1 hp))]
    | some p =>
      obtain ⟨t, w⟩ := p
      rw [visit_eq .none g running hp, h.cancelled, h.spent]
      simp only [Interruptions.none, Bool.or_self, Bool.false_eq_true, ↓reduceIte]
      split
      · exact ⟨rfl, rfl, rfl⟩
      · apply Calm.proceed
        exact ⟨rfl, rfl, h.status⟩

/-- A look that nothing interrupts judges the next trail; then the search is
full, or the trail's extensions wait. -/
theorem Calm.visit_cases {s : SearchState F L} (h : s.Calm) (g : Goal) {t : Trail}
    {rest : List Trail} (running : s.isStopped = false) (next : s.waiting.toList = t :: rest) :
    (s.visit .none g).findings = F.judge L g t s.findings ∧
    ((F.accepts L g t = true ∧ L.maxChains ≤ (F.judge L g t s.findings).size ∧
        (s.visit .none g).status = .limitReached ∧ (s.visit .none g).waiting.toList = rest) ∨
      ((F.accepts L g t = true → (F.judge L g t s.findings).size < L.maxChains) ∧
        (s.visit .none g).status = .exhausted ∧
        (s.visit .none g).waiting.toList = rest ++ F.branches L rest.length t)) := by
  have calm := h.visit g
  cases look_visit .none g s with
  | rests ended => simp [running, next] at ended
  | halts t' rest' _ next' status => simp [calm.status] at status
  | fills t' rest' _ next' status waiting accepted findings full =>
    obtain ⟨rfl, rfl⟩ : t = t' ∧ rest = rest' := by simpa [next] using next'
    exact ⟨findings, .inl ⟨accepted, findings ▸ full, status, waiting⟩⟩
  | goesOn t' rest' _ next' status waiting findings room =>
    obtain ⟨rfl, rfl⟩ : t = t' ∧ rest = rest' := by simpa [next] using next'
    exact ⟨findings, .inr ⟨findings ▸ room, status, waiting⟩⟩

theorem Calm.visitTimes {s : SearchState F L} (h : s.Calm) (g : Goal) (n : Nat) :
    (s.visitTimes .none g n).Calm :=
  visitTimes_preserves (fun _ hu => hu.visit g) n h

theorem Calm.explore {s : SearchState F L} (h : s.Calm) (starts : List Link) (g : Goal) :
    (s.explore .none starts g).Calm := by
  obtain ⟨n, hn⟩ := explore_eq_visitTimes .none starts g s
  exact hn ▸ Calm.visitTimes (s := s.enter starts) ⟨h.cancelled, h.spent, h.status⟩ g n

theorem Calm.pursue (types : List JavaType) {s : SearchState F L} (h : s.Calm) :
    (s.pursue .none starts types).Calm := by
  induction types generalizing s with
  | nil => exact h
  | cons type types ih =>
    rw [SearchState.pursue]
    split
    · exact ⟨h.cancelled, h.spent, rfl⟩
    · split
      · exact ih h
      · simp only
        split
        · exact h.explore starts _
        · exact ih (h.explore starts _)

/-! ### Side by side -/

/-- Two searches have the same trails waiting, the same findings, and the same
status. What they have kept in their memos may differ. -/
structure Alike (s s' : SearchState F L) : Prop where
  waiting : s.waiting.toList = s'.waiting.toList
  findings : s.findings = s'.findings
  status : s.status = s'.status

/-- `s` was interrupted when it had found what `s'` had found before. -/
structure CutOff (s s' : SearchState F L) : Prop where
  interrupted : s.status.isInterruption = true
  findings : s.findings.toList <+: s'.findings.toList

/-- `s` is where `s'` is, unless it was interrupted on the way. -/
def Behind (s s' : SearchState F L) : Prop := s.Alike s' ∨ s.CutOff s'

theorem Alike.isStopped {s s' : SearchState F L} (h : s.Alike s') : s.isStopped = s'.isStopped := by
  simp [SearchState.isStopped, h.status]

theorem Alike.isOver_iff {s s' : SearchState F L} (h : s.Alike s') : s.IsOver ↔ s'.IsOver := by
  rw [IsOver, IsOver, h.isStopped, h.waiting]

theorem Alike.enter {s s' : SearchState F L} (h : s.Alike s') (starts : List Link) :
    (s.enter starts).Alike (s'.enter starts) :=
  ⟨rfl, h.findings, h.status⟩

theorem CutOff.isOver {s s' : SearchState F L} (h : s.CutOff s') : s.IsOver :=
  .inl (isStopped_of_isInterruption h.interrupted)

theorem CutOff.trans {s s' u : SearchState F L} (h : s.CutOff s')
    (grows : s'.findings.toList <+: u.findings.toList) : s.CutOff u :=
  ⟨h.interrupted, h.findings.trans grows⟩

/-- A look leads two searches that are alike to the same place, unless it
interrupts the first. -/
theorem Alike.visit {s s' : SearchState F L} (h : s.Alike s') (calm : s'.Calm) :
    (s.visit I g).Behind (s'.visit .none g) := by
  cases look_visit I g s with
  | rests ended same =>
    have ended' : s'.IsOver := h.isOver_iff.1 ended
    rw [visit_of_isOver ended', same]
    exact .inl h
  | halts t rest running next status waiting findings =>
    obtain ⟨hjudge, -⟩ := calm.visit_cases g (h.isStopped ▸ running) (h.waiting ▸ next)
    right
    refine ⟨status, ?_⟩
    rw [hjudge, ← h.findings]
    rcases findings with hf | hf
    · exact hf ▸ Facts.prefix_judge g t s.findings
    · simp only [hf, List.prefix_rfl]
  | fills t rest running next status waiting accepted findings full =>
    obtain ⟨hjudge, ⟨-, -, hstatus, hwaiting⟩ | ⟨hroom, -⟩⟩ :=
      calm.visit_cases g (h.isStopped ▸ running) (h.waiting ▸ next)
    · exact .inl ⟨waiting.trans hwaiting.symm, by rw [findings, hjudge, h.findings],
        status.trans hstatus.symm⟩
    · have := hroom accepted
      rw [findings, h.findings] at full
      omega
  | goesOn t rest running next status waiting findings room =>
    obtain ⟨hjudge, ⟨haccepted, hfull, -⟩ | ⟨-, hstatus, hwaiting⟩⟩ :=
      calm.visit_cases g (h.isStopped ▸ running) (h.waiting ▸ next)
    · have := room haccepted
      rw [findings, h.findings] at this
      omega
    · exact .inl ⟨waiting.trans hwaiting.symm, by rw [findings, hjudge, h.findings],
        status.trans hstatus.symm⟩

theorem Behind.visit {s s' : SearchState F L} (h : s.Behind s') (calm : s'.Calm) :
    (s.visit I g).Behind (s'.visit .none g) := by
  rcases h with h | h
  · exact h.visit calm
  · rw [visit_of_isOver h.isOver]
    exact .inr (h.trans (look_visit .none g s').prefix_findings)

theorem Behind.visitTimes {s s' : SearchState F L} (h : s.Behind s') (calm : s'.Calm) (n : Nat) :
    (s.visitTimes I g n).Behind (s'.visitTimes .none g n) := by
  induction n generalizing s s' with
  | zero => exact h
  | succ n ih => exact ih (h.visit calm) (calm.visit g)

theorem Behind.sweepTimes {s s' : SearchState F L} (h : s.Behind s') (calm : s'.Calm) (n : Nat) :
    (s.sweepTimes I g n).Behind (s'.sweepTimes .none g n) := by
  induction n generalizing s s' with
  | zero => exact h
  | succ n ih =>
    rcases h with h | h
    · by_cases ended : s.IsOver
      · rw [sweepTimes_of_isOver ended, sweepTimes_of_isOver (h.isOver_iff.1 ended)]
        exact .inl h
      · have ended' : ¬ s'.IsOver := fun ended' => ended (h.isOver_iff.2 ended')
        -- as many trails wait in both, so that the sweeps have as many looks
        have hsize : s.waiting.size = s'.waiting.size := by
          rw [← Queue.length_toList, h.waiting, Queue.length_toList]
        rw [sweepTimes_succ_of_not_isOver ended, sweepTimes_succ_of_not_isOver ended']
        apply ih
        · rw [sweep, sweep, hsize]
          exact Behind.visitTimes (.inl h) calm _
        · exact calm.visitTimes g _
    · rw [sweepTimes_of_isOver h.isOver]
      exact .inr (h.trans (findings_prefix_sweepTimes _ s'))

/-- Side by side through the goals of a search. -/
theorem Alike.pursue (I : Interruptions) (starts : List Link) (types : List JavaType)
    {s s' : SearchState F L} (h : s.Alike s') (calm : s'.Calm) :
    (s.pursue I starts types).Behind (s'.pursue .none starts types) := by
  induction types generalizing s s' with
  | nil => exact .inl h
  | cons type types ih =>
    rw [SearchState.pursue, SearchState.pursue, h.findings]
    split
    · exact .inl ⟨h.waiting, h.findings, rfl⟩
    · split
      · exact ih h calm
      · have hexplore : (s.explore I starts (Goal.ofType type)).Behind
            (s'.explore .none starts (Goal.ofType type)) :=
          Behind.sweepTimes (.inl (h.enter starts)) ⟨calm.cancelled, calm.spent, calm.status⟩ _
        have calm' := calm.explore starts (Goal.ofType type)
        rcases hexplore with hx | hx
        · simp only [hx.isStopped]
          split
          · exact .inl hx
          · exact ih hx calm'
        · simp only [isStopped_of_isInterruption hx.interrupted, ↓reduceIte]
          -- one search is cut off here; what the other still finds comes behind
          right
          split
          · exact hx
          · exact hx.trans (findings_prefix_pursue types _)

/-- A search keeps side by side with the same one that nothing interrupts. -/
theorem behind_search (I : Interruptions) (starts : List Link) (types : List JavaType)
    (s : SearchState F L) :
    (s.search I starts types).Behind (({ s with cancelled := false } : SearchState F L).search .none
      starts types) := by
  rw [search_eq, search_eq]
  split
  · exact .inl ⟨rfl, rfl, rfl⟩
  · exact Alike.pursue I starts types ⟨rfl, rfl, rfl⟩ ⟨rfl, rfl, rfl⟩

theorem Behind.prefix_findings {s s' : SearchState F L} (h : s.Behind s') :
    s.findings.toList <+: s'.findings.toList := by
  rcases h with h | h
  · simp only [h.findings, List.prefix_rfl]
  · exact h.findings

theorem Behind.outcome_eq {s s' : SearchState F L} (h : s.Behind s')
    (calm : s.status.isInterruption = false) : s.outcome = s'.outcome := by
  rcases h with h | h
  · rw [outcome, outcome, h.findings, h.status]
  · simp [h.interrupted] at calm

end SearchState

/-- Where a search cannot find anything, it makes no difference that the
supervised one is not started. -/
theorem Facts.supervisedSearch_eq (F : Facts) (L : Limits) (I : Interruptions) (starts : List Link)
    (types : List JavaType) : F.supervisedSearch L I starts types = F.search L I starts types := by
  unfold supervisedSearch
  split
  · rename_i h
    simp only [Bool.or_eq_true, List.isEmpty_iff, decide_eq_true_eq] at h
    rw [search, SearchState.search_eq]
    rcases h with (rfl | rfl) | h
    · simp [SearchState.outcome, SearchState.begun]
    · simp [SearchState.outcome, SearchState.begun, SearchState.pursue]
    · simp [SearchState.outcome, SearchState.begun, h]
  · rfl

/-- **Interruptions only cut off.** Whatever interrupts a search, on its own or
supervised, what it has found at any moment and in the end are the first of the
chains that it finds if nothing interrupts it. A supervised search that nothing
has interrupted ends as the search that runs on its own, with the same chains. -/
theorem Facts.interruptions_truncate (F : Facts) (L : Limits) (I : Interruptions)
    (starts : List Link) (types : List JavaType) :
    (∀ s u : SearchState F L,
      SearchState.Moment I starts types s.begun u ∨ u = s.search I starts types →
        u.findings.toList <+: (({ s with cancelled := false } : SearchState F L).search .none starts
          types).findings.toList) ∧
    (F.supervisedSearch L I starts types).chains <+:
      (F.supervisedSearch L .none starts types).chains ∧
    ((F.supervisedSearch L I starts types).status.isInterruption = false →
      F.supervisedSearch L I starts types = F.search L .none starts types) ∧
    F.supervisedSearch L .none starts types = F.search L .none starts types := by
  refine ⟨fun s u hu => ?_, ?_, ?_, F.supervisedSearch_eq L .none starts types⟩
  · have hbehind := (SearchState.behind_search I starts types s).prefix_findings
    rcases hu with hu | rfl
    · exact hu.findings_prefix_search.trans hbehind
    · exact hbehind
  · rw [F.supervisedSearch_eq, F.supervisedSearch_eq]
    exact (SearchState.behind_search I starts types {}).prefix_findings
  · rw [F.supervisedSearch_eq]
    exact fun calm => (SearchState.behind_search I starts types {}).outcome_eq calm

/-- A search that is called off at its fourth look has found the first of the
chains; one that is to be called off at its fortieth has found all before. -/
theorem Circle.truncate_circle :
    ((facts.supervisedSearch limits { cancelledAt := fun n => n == 3 } [start "x", start "y"]
        [.named "B", .named "A"]).chains <+:
      (facts.supervisedSearch limits .none [start "x", start "y"] [.named "B", .named "A"]).chains) ∧
    (facts.supervisedSearch limits { cancelledAt := fun n => n == 3 } [start "x", start "y"]
        [.named "B", .named "A"]).chains.map Chain.printed = ["x.bs"] ∧
    facts.supervisedSearch limits { cancelledAt := fun n => n == 40 } [start "x", start "y"]
        [.named "B", .named "A"] =
      facts.search limits .none [start "x", start "y"] [.named "B", .named "A"] ∧
    (facts.search limits .none [start "x", start "y"] [.named "B", .named "A"]).chains.map
      Chain.printed = ["x.bs", "y.bs", "x", "y", "x.bs.a"] := by
  obtain ⟨-, hbehind, -, -⟩ := facts.interruptions_truncate limits { cancelledAt := fun n => n == 3 }
    [start "x", start "y"] [.named "B", .named "A"]
  obtain ⟨-, -, hsame, -⟩ := facts.interruptions_truncate limits { cancelledAt := fun n => n == 40 }
    [start "x", start "y"] [.named "B", .named "A"]
  exact ⟨hbehind, by decide, hsame (by decide), by decide⟩

end CallChain
