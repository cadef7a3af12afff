/-
# The course of a search

What all looks have in common, said of whole searches: a search that is over
stays as it is, and the sweeps for a goal go on until it is; findings only
grow; what a search for several types ends up with is what it has found at one
of its moments, and has in it what was found at any; it has found no more than
asked for, and no two chains that are printed alike.

Key definitions: `SearchState.IsOver`, `SearchState.begun`,
`SearchState.WithinLimit`.
Key theorems: `SearchState.isOver_explore`,
`SearchState.exists_moment_findings_eq`, `SearchState.Moment.findings_prefix_search`,
`SearchState.findings_search_preserves`, `SearchState.size_findings_search_le`,
`Facts.nodup_printed_search`.
-/
import CallChain.Proofs.Search.Look

namespace CallChain

namespace SearchState

variable {F : Facts} {L : Limits} {I : Interruptions} {g : Goal} {starts : List Link}

theorem waiting_enter (starts : List Link) (s : SearchState F L) :
    (s.enter starts).waiting.toList = (L.openings starts).map fun l => { tail := l } :=
  Queue.toList_ofList _

theorem length_of_mem_enter {s : SearchState F L} {t : Trail}
    (h : t ∈ (s.enter starts).waiting.toList) : t.length = 1 := by
  rw [waiting_enter] at h
  obtain ⟨l, -, rfl⟩ := List.mem_map.1 h
  rfl

/-- Nothing is left to look at, or something has stopped the search. -/
def IsOver (s : SearchState F L) : Prop := s.isStopped = true ∨ s.waiting.toList = []

theorem visit_of_isOver {s : SearchState F L} (h : s.IsOver) : s.visit I g = s := by
  rcases h with h | h
  · simp [visit, h]
  · simp [visit, Queue.pop?_eq_none_iff.2 h]

theorem visitTimes_of_isOver {s : SearchState F L} (h : s.IsOver) (n : Nat) :
    s.visitTimes I g n = s := by
  induction n with
  | zero => rfl
  | succ n ih => rw [visitTimes, visit_of_isOver h, ih]

theorem visitTimes_of_le {s : SearchState F L} {m n : Nat} (h : (s.visitTimes I g m).IsOver)
    (hle : m ≤ n) : s.visitTimes I g n = s.visitTimes I g m := by
  obtain ⟨k, rfl⟩ := Nat.exists_eq_add_of_le hle
  rw [visitTimes_add, visitTimes_of_isOver h]

theorem sweepTimes_of_isOver {s : SearchState F L} (h : s.IsOver) (n : Nat) :
    s.sweepTimes I g n = s := by
  obtain ⟨m, hm⟩ := sweepTimes_eq_visitTimes I g n s
  rw [hm, visitTimes_of_isOver h]

theorem waiting_size_eq_zero_iff {s : SearchState F L} :
    s.waiting.size = 0 ↔ s.waiting.toList = [] := by
  rw [← Queue.length_toList, List.length_eq_zero_iff]

theorem sweepTimes_succ_of_not_isOver {s : SearchState F L} (h : ¬ s.IsOver) (n : Nat) :
    s.sweepTimes I g (n + 1) = (s.sweep I g).sweepTimes I g n := by
  rw [IsOver, not_or] at h
  rw [sweepTimes, if_neg]
  simpa [waiting_size_eq_zero_iff] using h

theorem isInterruption_sweepTimes {s : SearchState F L} {n : Nat}
    (h : s.status.isInterruption = true) : (s.sweepTimes I g n).status.isInterruption = true := by
  rw [sweepTimes_of_isOver (.inl (isStopped_of_isInterruption h)), h]

/-! ### To the end -/

/-- Looks at the trails at the front of the queue, all of one length, leave
longer ones at its back, none of them too long. -/
theorem visitTimes_front_isOver {n : Nat} (ts rest : List Trail) {s : SearchState F L}
    (waiting : s.waiting.toList = ts ++ rest) (front : ∀ t ∈ ts, t.length = n)
    (back : ∀ t ∈ rest, t.length = n + 1 ∧ n < L.maxLength) :
    (s.visitTimes I g ts.length).isStopped = true ∨
      ∀ t ∈ (s.visitTimes I g ts.length).waiting.toList, t.length = n + 1 ∧ n < L.maxLength := by
  induction ts generalizing s rest with
  | nil =>
    right
    rw [List.nil_append] at waiting
    simpa [visitTimes, waiting] using back
  | cons t ts ih =>
    rw [List.length_cons, visitTimes]
    cases look_visit I g s with
    | rests ended same =>
      rcases ended with h | h
      · left
        rw [same, visitTimes_of_isOver (.inl h), h]
      · simp [h] at waiting
    | halts t' rest' running next status =>
      have stopped := isStopped_of_isInterruption status
      left
      rw [visitTimes_of_isOver (.inl stopped), stopped]
    | fills t' rest' running next status =>
      have stopped : (s.visit I g).isStopped = true := by simp [isStopped, status]
      left
      rw [visitTimes_of_isOver (.inl stopped), stopped]
    | goesOn t' rest' running next status waiting' =>
      obtain ⟨rfl, rfl⟩ : t' = t ∧ rest' = ts ++ rest := by simpa [waiting, eq_comm] using next
      rw [List.append_assoc] at waiting'
      refine ih _ waiting' (fun u hu => front u (List.mem_cons_of_mem _ hu)) (fun u hu => ?_)
      rcases List.mem_append.1 hu with hu | hu
      · exact back u hu
      · have hlen := Facts.length_of_mem_branches hu
        rw [front t' List.mem_cons_self] at hlen
        exact hlen

/-- As many sweeps as trails may still get longer are enough. -/
theorem isOver_sweepTimes (n m : Nat) {s : SearchState F L}
    (waiting : ∀ t ∈ s.waiting.toList, t.length = m + 1 ∧ (m = 0 ∨ m < L.maxLength))
    (enough : max 1 L.maxLength ≤ m + n) : (s.sweepTimes I g n).IsOver := by
  induction n generalizing s m with
  | zero =>
    right
    rw [sweepTimes, List.eq_nil_iff_forall_not_mem]
    intro t ht
    have := (waiting t ht).2
    omega
  | succ n ih =>
    by_cases ended : s.IsOver
    · rwa [sweepTimes_of_isOver ended]
    · rw [sweepTimes_succ_of_not_isOver ended]
      have hs : s.sweep I g = s.visitTimes I g s.waiting.toList.length := by
        rw [sweep, Queue.length_toList]
      rcases visitTimes_front_isOver (I := I) (g := g) s.waiting.toList []
          (List.append_nil _).symm (fun t ht => (waiting t ht).1) (by simp) with stopped | longer
      · rw [← hs] at stopped
        rw [sweepTimes_of_isOver (.inl stopped)]
        exact .inl stopped
      · rw [← hs] at longer
        exact ih (m + 1) (fun t ht => ⟨(longer t ht).1, .inr (longer t ht).2⟩) (by omega)

/-- The sweeps for one goal are enough: afterwards nothing is left to look at,
or something has stopped the search. -/
theorem isOver_explore (starts : List Link) (s : SearchState F L) :
    (s.explore I starts g).IsOver := by
  exact isOver_sweepTimes _ 0 (fun t ht => ⟨length_of_mem_enter ht, .inl rfl⟩) (by omega)

/-! ### Findings grow -/

theorem findings_prefix_visitTimes (n : Nat) (s : SearchState F L) :
    s.findings.toList <+: (s.visitTimes I g n).findings.toList :=
  visitTimes_preserves (P := fun u => s.findings.toList <+: u.findings.toList)
    (fun u h => h.trans (look_visit I g u).prefix_findings) n List.prefix_rfl

theorem findings_prefix_sweepTimes (n : Nat) (s : SearchState F L) :
    s.findings.toList <+: (s.sweepTimes I g n).findings.toList := by
  obtain ⟨m, hm⟩ := sweepTimes_eq_visitTimes I g n s
  exact hm ▸ findings_prefix_visitTimes m s

theorem findings_prefix_explore (s : SearchState F L) :
    s.findings.toList <+: (s.explore I starts g).findings.toList :=
  findings_prefix_sweepTimes _ (s.enter starts)

theorem findings_prefix_pursue (types : List JavaType) (s : SearchState F L) :
    s.findings.toList <+: (s.pursue I starts types).findings.toList := by
  induction types generalizing s with
  | nil => exact List.prefix_rfl
  | cons type types ih =>
    rw [pursue]
    split
    · exact List.prefix_rfl
    · split
      · exact ih s
      · simp only
        split
        · exact findings_prefix_explore s
        · exact (findings_prefix_explore s).trans (ih _)

/-! ### From the first moment to the last -/

/-- The search for several types as it begins: with nothing of an earlier one
left but what it found and looked up, and the order to call it off. -/
def begun (s : SearchState F L) : SearchState F L :=
  { s with waiting := .ofList [], visits := 0, spent := false, status := .exhausted }

theorem search_eq (I : Interruptions) (starts : List Link) (types : List JavaType)
    (s : SearchState F L) :
    s.search I starts types =
      if L.maxChains = 0 || starts.isEmpty then s.begun else s.begun.pursue I starts types := rfl

theorem explore_eq_visitTimes (I : Interruptions) (starts : List Link) (g : Goal)
    (s : SearchState F L) :
    ∃ n, s.explore I starts g = (s.enter starts).visitTimes I g n :=
  sweepTimes_eq_visitTimes I g _ (s.enter starts)

/-- A search ends with what it had found at one of its moments. -/
theorem exists_moment_findings_eq (types : List JavaType) (s : SearchState F L) :
    ∃ u, Moment I starts types s u ∧ (s.pursue I starts types).findings = u.findings := by
  induction types generalizing s with
  | nil => exact ⟨s, .first [] s, rfl⟩
  | cons type types ih =>
    rw [pursue]
    split
    · exact ⟨s, .first _ s, rfl⟩
    · rename_i room
      split
      · rename_i unwanted
        obtain ⟨u, hu, he⟩ := ih s
        exact ⟨u, .skip unwanted hu, he⟩
      · rename_i wanted
        have room' : s.findings.size < L.maxChains := Nat.lt_of_not_le room
        have wanted' : L.excludes type.elementType.signature = false := by simpa using wanted
        simp only
        split
        · obtain ⟨n, hn⟩ := explore_eq_visitTimes I starts (Goal.ofType type) s
          exact ⟨_, .look n room' wanted', congrArg SearchState.findings hn⟩
        · rename_i goesOn
          obtain ⟨u, hu, he⟩ := ih (s.explore I starts (Goal.ofType type))
          exact ⟨u, .next room' wanted' (by simpa using goesOn) hu, he⟩

theorem findings_prefix_explore_of_moment (n : Nat) (s : SearchState F L) :
    ((s.enter starts).visitTimes I g n).findings.toList <+:
      (s.explore I starts g).findings.toList := by
  obtain ⟨m, hm⟩ := explore_eq_visitTimes I starts g s
  have ended : ((s.enter starts).visitTimes I g m).IsOver := hm ▸ isOver_explore starts s
  rw [hm]
  rcases Nat.le_total n m with hnm | hmn
  · obtain ⟨k, rfl⟩ := Nat.exists_eq_add_of_le hnm
    rw [visitTimes_add]
    exact findings_prefix_visitTimes k _
  · simp only [visitTimes_of_le ended hmn, List.prefix_rfl]

/-- A search finds nothing if it has enough already, or nothing to start with. -/
theorem findings_pursue_of_idle (types : List JavaType) {s : SearchState F L}
    (idle : L.maxChains ≤ s.findings.size ∨ starts = []) :
    (s.pursue I starts types).findings = s.findings := by
  induction types generalizing s with
  | nil => rfl
  | cons type types ih =>
    rw [pursue]
    split
    · rfl
    · rename_i room
      split
      · exact ih idle
      · obtain rfl : starts = [] := idle.resolve_left room
        have same : (s.explore I [] (Goal.ofType type)).findings = s.findings := by
          rw [explore, sweepTimes_of_isOver (.inr (waiting_enter [] s))]
          rfl
        simp only
        split
        · exact same
        · rw [ih (.inr rfl), same]

theorem Moment.findings_prefix_pursue {types : List JavaType} {s u : SearchState F L}
    (h : Moment I starts types s u) :
    u.findings.toList <+: (s.pursue I starts types).findings.toList := by
  induction h with
  | first types s => exact SearchState.findings_prefix_pursue types s
  | look n room wanted =>
    rw [pursue, if_neg (Nat.not_le.2 room), if_neg (by simp [wanted])]
    refine (findings_prefix_explore_of_moment n _).trans ?_
    simp only
    split
    · exact List.prefix_rfl
    · exact SearchState.findings_prefix_pursue _ _
  | skip unwanted _ ih =>
    rw [pursue]
    split
    · rename_i full
      rwa [SearchState.findings_pursue_of_idle _ (.inl full)] at ih
    · exact ih
  | next room wanted goesOn _ ih =>
    rw [pursue, if_neg (Nat.not_le.2 room), if_neg (by simp [wanted])]
    simp only [goesOn]
    exact ih

/-- **What is found at any moment of a search is there when it ends**, in its
place. -/
theorem Moment.findings_prefix_search {types : List JavaType} {s u : SearchState F L}
    (h : Moment I starts types s.begun u) :
    u.findings.toList <+: (s.search I starts types).findings.toList := by
  rw [search_eq]
  split
  · rename_i idle
    simp only [Bool.or_eq_true, decide_eq_true_eq, List.isEmpty_iff] at idle
    have h' := h.findings_prefix_pursue
    rwa [findings_pursue_of_idle] at h'
    exact idle.imp_left fun h => by omega
  · exact h.findings_prefix_pursue

/-- What every push keeps is kept by a search. -/
theorem findings_search_preserves {P : Findings → Prop} (push : ∀ f c, P f → P (f.push c))
    (I : Interruptions) (starts : List Link) (types : List JavaType) {s : SearchState F L}
    (h : P s.findings) : P (s.search I starts types).findings := by
  rw [search_eq]
  split
  · exact h
  · obtain ⟨u, hu, he⟩ := exists_moment_findings_eq types s.begun
    rw [he]
    refine hu.preserves (P := fun v => P v.findings) (fun _ hv => hv) (fun type _ _ v hv => ?_) h
    rcases (look_visit I (Goal.ofType type) v).findings_cases with same | ⟨c, pushed⟩
    · rwa [same]
    · rw [pushed]
      exact push v.findings c hv

/-! ### As many as asked for -/

/-- No more is found than asked for, and less as long as the search goes on. -/
structure WithinLimit (s : SearchState F L) : Prop where
  size_le : s.findings.size ≤ L.maxChains
  size_lt : s.isStopped = false → s.findings.size < L.maxChains

theorem Look.withinLimit {s s' : SearchState F L} (look : Look g s s') (h : s.WithinLimit) :
    s'.WithinLimit := by
  have hsize := look.size_findings_le
  cases look with
  | rests ended same => rwa [same]
  | halts t rest running next status =>
    have hlt := h.size_lt running
    have hstopped := isStopped_of_isInterruption status
    exact ⟨by omega, by simp [hstopped]⟩
  | fills t rest running next status =>
    have hlt := h.size_lt running
    exact ⟨by omega, by simp [isStopped, status]⟩
  | goesOn t rest running next status waiting findings room =>
    have hlt : s'.findings.size < L.maxChains := by
      cases ha : F.accepts L g t with
      | true => exact room ha
      | false =>
        rw [findings, Facts.judge, ha]
        exact h.size_lt running
    exact ⟨Nat.le_of_lt hlt, fun _ => hlt⟩

theorem withinLimit_explore {s : SearchState F L} (room : s.findings.size < L.maxChains) :
    (s.explore I starts g).WithinLimit := by
  obtain ⟨n, hn⟩ := explore_eq_visitTimes I starts g s
  have hstart : (s.enter starts).WithinLimit := ⟨Nat.le_of_lt room, fun _ => room⟩
  rw [hn]
  exact visitTimes_preserves (fun u hu => (look_visit I g u).withinLimit hu) n hstart

theorem size_findings_pursue_le (types : List JavaType) (s : SearchState F L) :
    (s.pursue I starts types).findings.size ≤ max s.findings.size L.maxChains := by
  induction types generalizing s with
  | nil => exact Nat.le_max_left _ _
  | cons type types ih =>
    rw [pursue]
    split
    · exact Nat.le_max_left _ _
    · rename_i room
      split
      · exact ih s
      · have hexplore : (s.explore I starts (Goal.ofType type)).findings.size ≤ L.maxChains :=
          (withinLimit_explore (Nat.lt_of_not_le room)).size_le
        have hrest := ih (s.explore I starts (Goal.ofType type))
        simp only
        split
        · omega
        · omega

/-- A search has found no more than asked for in the end, unless it had found
more before. -/
theorem size_findings_search_le (I : Interruptions) (starts : List Link) (types : List JavaType)
    (s : SearchState F L) :
    (s.search I starts types).findings.size ≤ max s.findings.size L.maxChains := by
  rw [search_eq]
  split
  · exact Nat.le_max_left _ _
  · exact size_findings_pursue_le types s.begun

end SearchState

/-! ### A search on its own -/

theorem Facts.chains_search (F : Facts) (L : Limits) (I : Interruptions) (starts : List Link)
    (types : List JavaType) : (F.search L I starts types).chains =
      (({} : SearchState F L).search I starts types).findings.toList :=
  rfl

theorem Facts.length_search_le (F : Facts) (L : Limits) (I : Interruptions) (starts : List Link)
    (types : List JavaType) : (F.search L I starts types).chains.length ≤ L.maxChains := by
  have hsize := SearchState.size_findings_search_le I starts types ({} : SearchState F L)
  have hstart : ({} : SearchState F L).findings.size = 0 := rfl
  rw [chains_search, Findings.length_toList]
  omega

/-- No two chains that are found are printed alike. -/
theorem Facts.nodup_printed_search (F : Facts) (L : Limits) (I : Interruptions)
    (starts : List Link) (types : List JavaType) :
    ((F.search L I starts types).chains.map Chain.printed).Nodup := by
  have hend : (({} : SearchState F L).search I starts types).findings.printed.Nodup :=
    SearchState.findings_search_preserves (P := fun f => f.printed.Nodup)
      (fun f c h => Findings.nodup_printed_push h c) I starts types .nil
  exact Findings.nodup_map_printed_toList hend

/-! ### An example -/

namespace Circle

/-- What is known of two types whose values lead to each other: an `A` to an
array of `B`, a `B` to an `A`. -/
def facts : Facts where
  members := fun _ type =>
    if type = .named "A" then .ok [.field "A" "bs" (.array (.named "B") 1)]
    else if type = .named "B" then .ok [.field "B" "a" (.named "A")]
    else .error (.unresolvedType type.fullText)
  typeOf := fun m => .ok m.type
  assignable := fun a b => a == b

/-- A local variable of type `A`, as a link. -/
def start (name : String) : Link :=
  .ofMember (.localVar name (.named "A")) .localVar (.named "A") 0 false

def limits : Limits :=
  { maxChains := 5, minLength := 1, maxLength := 3, excluded := ["#z"], timeout := ⟨3, 0, Nat.zero_lt_succ _⟩ }

end Circle

end CallChain
