/-
# What a look can do

A look takes the next trail from the queue, judges it as a chain, and lets
the trails that extend it wait. `Look` lists the ways in which this can end,
with what becomes of the queue, of the findings and of the status; `look_visit`
says that there are no others. What is proved about searches rests on these
cases, or on `visit_eq` where the memo counts, and never opens
`SearchState.visit`.

Key definitions: `Status.isInterruption`, `Facts.accepts`, `Facts.judge`,
`Facts.branches`, `SearchState.Look`.
Key theorems: `SearchState.look_visit`, `SearchState.exists_visit_eq`,
`SearchState.Look.prefix_findings`.
-/
import CallChain.Search.Moments

namespace CallChain

/-- Whether a search ended because of something outside it. -/
def Status.isInterruption : Status → Bool
  | .exhausted | .limitReached => false
  | .timedOut | .cancelled | .aborted => true

theorem Break.isInterruption_status (b : Break) : b.status.isInterruption = true := by
  cases b <;> rfl

/-- Whether a trail is a chain for a goal: long enough, with a value that
fits. -/
def Facts.accepts (F : Facts) (L : Limits) (g : Goal) (t : Trail) : Bool :=
  L.minLength ≤ t.length && F.reaches g t.tail

/-- The findings once a trail is judged: with its chain if it is one. -/
def Facts.judge (F : Facts) (L : Limits) (g : Goal) (t : Trail) (f : Findings) : Findings :=
  if F.accepts L g t then f.push (t.chain g.dims) else f

/-- The trails that join the queue after a look at a trail, when `rest` others
are left in it. -/
def Facts.branches (F : Facts) (L : Limits) (rest : Nat) (t : Trail) : List Trail :=
  if L.maxLength ≤ t.length || maxWaiting ≤ rest then []
  else t.extensions (F.expansion L t.tail.type.elementType)

variable {F : Facts} {L : Limits}

theorem Facts.judge_cases (g : Goal) (t : Trail) (f : Findings) :
    F.judge L g t f = f ∨ ∃ c, F.judge L g t f = f.push c := by
  unfold judge
  split
  · exact .inr ⟨_, rfl⟩
  · exact .inl rfl

theorem Facts.prefix_judge (g : Goal) (t : Trail) (f : Findings) :
    f.toList <+: (F.judge L g t f).toList := by
  rcases F.judge_cases (L := L) g t f with same | ⟨c, pushed⟩
  · simp only [same, List.prefix_rfl]
  · exact pushed ▸ f.toList_prefix_push c

theorem Facts.branches_of_lt {rest : Nat} {t : Trail} (h : t.length < L.maxLength → rest < maxWaiting) :
    F.branches L rest t = F.branches L 0 t := by
  unfold branches
  by_cases hl : L.maxLength ≤ t.length
  · simp [hl]
  · have hr : ¬ maxWaiting ≤ rest := Nat.not_le.2 (h (by omega))
    have h0 : ¬ maxWaiting ≤ 0 := by decide
    simp [hl, hr, h0]

theorem Facts.length_of_mem_branches {rest : Nat} {t u : Trail} (h : u ∈ F.branches L rest t) :
    u.length = t.length + 1 ∧ t.length < L.maxLength := by
  unfold branches at h
  split at h
  · cases h
  · rename_i hc
    simp only [Bool.or_eq_true, decide_eq_true_eq, not_or] at hc
    exact ⟨Trail.length_of_mem_extensions h, by omega⟩

theorem Facts.length_branches_le (rest : Nat) (t : Trail) :
    (F.branches L rest t).length ≤ (F.expansion L t.tail.type.elementType).length := by
  unfold branches Trail.extensions
  split
  · exact Nat.zero_le _
  · rw [List.length_map]
    exact List.length_filter_le _ _

namespace SearchState

/-- `Look g s s'` says how a look for a goal leads from `s` to `s'`: nothing is
left to do; an interruption is noticed, before the trail was judged or after;
the trail's chain makes enough of them; or the search goes on. -/
inductive Look (g : Goal) (s s' : SearchState F L) : Prop where
  | rests (ended : s.isStopped = true ∨ s.waiting.toList = []) (same : s' = s)
  | halts (t : Trail) (rest : List Trail) (running : s.isStopped = false)
      (next : s.waiting.toList = t :: rest) (status : s'.status.isInterruption = true)
      (waiting : s'.waiting.toList = rest)
      (findings : s'.findings = s.findings ∨ s'.findings = F.judge L g t s.findings)
  | fills (t : Trail) (rest : List Trail) (running : s.isStopped = false)
      (next : s.waiting.toList = t :: rest) (status : s'.status = .limitReached)
      (waiting : s'.waiting.toList = rest) (accepted : F.accepts L g t = true)
      (findings : s'.findings = F.judge L g t s.findings)
      (full : L.maxChains ≤ s'.findings.size)
  | goesOn (t : Trail) (rest : List Trail) (running : s.isStopped = false)
      (next : s.waiting.toList = t :: rest) (status : s'.status = .exhausted)
      (waiting : s'.waiting.toList = rest ++ F.branches L rest.length t)
      (findings : s'.findings = F.judge L g t s.findings)
      (room : F.accepts L g t = true → s'.findings.size < L.maxChains)

theorem isStopped_eq_false_iff {s : SearchState F L} : s.isStopped = false ↔ s.status = .exhausted := by
  simp [isStopped]

theorem isStopped_of_isInterruption {s : SearchState F L} (h : s.status.isInterruption = true) :
    s.isStopped = true := by
  cases hs : s.status <;> simp_all [Status.isInterruption, isStopped]

/-- An extended trail lets its extensions wait, unless the lookup breaks the
search off. -/
theorem extend_cases (I : Interruptions) (t : Trail) (s : SearchState F L) :
    (s.extend I t).findings = s.findings ∧
    (((s.extend I t).status = s.status ∧ (s.extend I t).waiting.toList =
        s.waiting.toList ++ t.extensions (F.expansion L t.tail.type.elementType)) ∨
      ((s.extend I t).status.isInterruption = true ∧ (s.extend I t).waiting = s.waiting)) := by
  simp only [extend]
  split
  · rename_i links hm
    rw [Memo.eq_of_get? hm]
    simp [enqueue]
  · split
    · exact ⟨rfl, .inr ⟨Break.isInterruption_status _, rfl⟩⟩
    · simp [enqueue]

/-- The search with a trail extended, if it may get longer and the queue has
room. -/
def proceed (I : Interruptions) (t : Trail) (s : SearchState F L) : SearchState F L :=
  if L.maxLength ≤ t.length || maxWaiting ≤ s.waiting.size then s else s.extend I t

theorem proceed_cases (I : Interruptions) (t : Trail) (s : SearchState F L) :
    (s.proceed I t).findings = s.findings ∧
    (((s.proceed I t).status = s.status ∧ (s.proceed I t).waiting.toList =
        s.waiting.toList ++ F.branches L s.waiting.size t) ∨
      ((s.proceed I t).status.isInterruption = true ∧ (s.proceed I t).waiting = s.waiting)) := by
  unfold proceed Facts.branches
  split
  · simp
  · exact s.extend_cases I t

/-- A look at a trail judges it; then the search is full, or it proceeds. -/
theorem consider_eq (I : Interruptions) (g : Goal) (t : Trail) {s : SearchState F L}
    (running : s.isStopped = false) :
    s.consider I g t =
      let u := { s with findings := F.judge L g t s.findings }
      if F.accepts L g t && decide (L.maxChains ≤ u.findings.size) then u.stop .limitReached
      else u.proceed I t := by
  cases ha : F.accepts L g t with
  | true =>
    have hc : (decide (L.minLength ≤ t.length) && F.reaches g t.tail) = true := ha
    by_cases hfull : L.maxChains ≤ (s.findings.push (t.chain g.dims)).size
    · simp [consider, hc, Facts.judge, ha, found, hfull, stop, isStopped]
    · rw [isStopped_eq_false_iff] at running
      simp [consider, hc, Facts.judge, ha, found, hfull, isStopped, running, proceed]
  | false =>
    have hc : (decide (L.minLength ≤ t.length) && F.reaches g t.tail) = false := ha
    simp [consider, hc, Facts.judge, ha, running, proceed]

/-- A look at the next trail notices an interruption, or judges the trail; then
the search is full, or it proceeds. -/
theorem visit_eq (I : Interruptions) (g : Goal) {s : SearchState F L} (running : s.isStopped = false)
    {t : Trail} {w : Queue Trail} (next : s.waiting.pop? = some (t, w)) :
    s.visit I g =
      let u := { s with waiting := w, visits := s.visits + 1 }
      let v := { u with findings := F.judge L g t s.findings }
      if s.cancelled || I.cancelledAt s.visits then u.stop .cancelled
      else if s.spent || I.spentAt s.visits then u.stop .timedOut
      else if F.accepts L g t && decide (L.maxChains ≤ v.findings.size) then v.stop .limitReached
      else v.proceed I t := by
  have running' :
      ({ s with waiting := w, visits := s.visits + 1 } : SearchState F L).isStopped = false := running
  simp only [visit, running, next, consider_eq I g t running']
  rfl

/-- Beside the queue, the count of looks, the findings and the status, a look
changes only what it does in extending a trail. -/
theorem exists_visit_eq (I : Interruptions) (g : Goal) (s : SearchState F L) :
    s.visit I g = s ∨ ∃ waiting findings status,
      let u := { s with waiting, visits := s.visits + 1, findings, status }
      s.visit I g = u ∨ ∃ t, s.visit I g = u.extend I t := by
  cases running : s.isStopped with
  | true => exact .inl (by simp [visit, running])
  | false =>
    cases hp : s.waiting.pop? with
    | none => exact .inl (by simp [visit, running, hp])
    | some p =>
      obtain ⟨t, w⟩ := p
      rw [visit_eq I g running hp]
      simp only
      split
      · exact .inr ⟨w, _, _, .inl rfl⟩
      · split
        · exact .inr ⟨w, _, _, .inl rfl⟩
        · split
          · exact .inr ⟨w, _, _, .inl rfl⟩
          · unfold proceed
            split
            · exact .inr ⟨w, _, _, .inl rfl⟩
            · exact .inr ⟨w, _, _, .inr ⟨t, rfl⟩⟩

/-- A look ends in one of the ways of `Look`. -/
theorem look_visit (I : Interruptions) (g : Goal) (s : SearchState F L) : Look g s (s.visit I g) := by
  cases running : s.isStopped with
  | true => exact .rests (.inl running) (by simp [visit, running])
  | false =>
    cases hp : s.waiting.pop? with
    | none => exact .rests (.inr (Queue.pop?_eq_none_iff.1 hp)) (by simp [visit, running, hp])
    | some p =>
      obtain ⟨t, w⟩ := p
      have next := Queue.toList_of_pop? hp
      rw [visit_eq I g running hp]
      simp only
      split
      · exact .halts t w.toList running next rfl rfl (.inl rfl)
      · split
        · exact .halts t w.toList running next rfl rfl (.inl rfl)
        · split
          · rename_i hc
            simp only [Bool.and_eq_true, decide_eq_true_eq] at hc
            exact .fills t w.toList running next rfl rfl hc.1 rfl hc.2
          · rename_i hc
            simp only [Bool.and_eq_true, decide_eq_true_eq, not_and, Nat.not_le] at hc
            obtain ⟨hf, ⟨hs, hw⟩ | ⟨hs, hw⟩⟩ := proceed_cases I t
              { s with waiting := w, visits := s.visits + 1, findings := F.judge L g t s.findings }
            · rw [isStopped_eq_false_iff] at running
              refine .goesOn t w.toList (isStopped_eq_false_iff.2 running) next (hs.trans running) ?_ hf ?_
              · rw [hw, Queue.length_toList]
              · rwa [hf]
            · exact .halts t w.toList running next hs (by rw [hw]) (.inr hf)

/-- A look leaves the findings as they are, or pushes one chain. -/
theorem Look.findings_cases {g : Goal} {s s' : SearchState F L} (h : Look g s s') :
    s'.findings = s.findings ∨ ∃ c, s'.findings = s.findings.push c := by
  cases h with
  | rests ended same => exact .inl (by rw [same])
  | halts t rest running next status waiting findings =>
    rcases findings with h | h
    · exact .inl h
    · exact h ▸ Facts.judge_cases g t _
  | fills t rest running next status waiting accepted findings => exact findings ▸ Facts.judge_cases g t _
  | goesOn t rest running next status waiting findings => exact findings ▸ Facts.judge_cases g t _

theorem Look.size_findings_le {g : Goal} {s s' : SearchState F L} (h : Look g s s') :
    s'.findings.size ≤ s.findings.size + 1 := by
  rcases h.findings_cases with same | ⟨c, pushed⟩
  · exact same ▸ Nat.le_succ _
  · exact pushed ▸ s.findings.size_push_le c

/-- A look only adds to the findings. -/
theorem Look.prefix_findings {g : Goal} {s s' : SearchState F L} (h : Look g s s') :
    s.findings.toList <+: s'.findings.toList := by
  rcases h.findings_cases with same | ⟨c, pushed⟩
  · exact same ▸ List.prefix_rfl
  · exact pushed ▸ s.findings.toList_prefix_push c

end SearchState

end CallChain
