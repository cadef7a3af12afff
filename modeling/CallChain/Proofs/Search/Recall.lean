/-
# What a search remembers makes no difference

Several searches may be made one after the other with what the earlier ones
have looked up. As each entry of a memo is what the facts say, two searches
that differ in their memos only go on alike, look by look, however the earlier
ones ended; and so does one that keeps nothing and looks up the members of a
value whenever it extends a trail.

Key definitions: `Call`, `SearchState.call`, `SearchState.SameButMemo`.
Key theorems: `SearchState.SameButMemo.search`, `SearchState.memo_transparent`.
-/
import CallChain.Proofs.Search.Course

namespace CallChain

variable {F : Facts} {L : Limits}

/-- One search of several: where chains may start, which types are wanted, what
interrupts it, what has been found before it, and whether it is called off from
the first. -/
structure Call where
  starts : List Link
  types : List JavaType
  interruptions : Interruptions
  found : Findings := .empty
  cancelled : Bool := false

namespace SearchState

/-- The search as it stands before a call, with what it has looked up so far. -/
def ready (s : SearchState F L) (c : Call) : SearchState F L :=
  { s with findings := c.found, cancelled := c.cancelled }

/-- The search after a call. -/
def call (s : SearchState F L) (c : Call) : SearchState F L :=
  (s.ready c).search c.interruptions c.starts c.types

/-- Calls that begin with nothing found are made on the search renewed. -/
theorem call_eq_search_renew (s : SearchState F L) (I : Interruptions) (starts : List Link)
    (types : List JavaType) :
    s.call { starts, types, interruptions := I } = s.renew.search I starts types := rfl

variable {I : Interruptions} {g : Goal} {starts : List Link}

/-! ### The same but for the memo -/

/-- Two searches that differ in what they remember at most. -/
structure SameButMemo (s s' : SearchState F L) : Prop where
  waiting : s.waiting = s'.waiting
  findings : s.findings = s'.findings
  visits : s.visits = s'.visits
  cancelled : s.cancelled = s'.cancelled
  spent : s.spent = s'.spent
  status : s.status = s'.status

namespace SameButMemo

variable {s s' s'' : SearchState F L}

theorem symm (h : s.SameButMemo s') : s'.SameButMemo s :=
  ⟨h.waiting.symm, h.findings.symm, h.visits.symm, h.cancelled.symm, h.spent.symm, h.status.symm⟩

theorem trans (h : s.SameButMemo s') (h' : s'.SameButMemo s'') : s.SameButMemo s'' :=
  ⟨h.waiting.trans h'.waiting, h.findings.trans h'.findings, h.visits.trans h'.visits,
    h.cancelled.trans h'.cancelled, h.spent.trans h'.spent, h.status.trans h'.status⟩

theorem isStopped (h : s.SameButMemo s') : s.isStopped = s'.isStopped := by
  rw [SearchState.isStopped, SearchState.isStopped, h.status]

theorem outcome_eq (h : s.SameButMemo s') : s.outcome = s'.outcome := by
  rw [outcome, outcome, h.status, h.findings]

theorem enqueue (h : s.SameButMemo s') (t : Trail) (links : List Link) :
    (s.enqueue t links).SameButMemo (s'.enqueue t links) where
  waiting := by rw [SearchState.enqueue, SearchState.enqueue, h.waiting]
  findings := h.findings
  visits := h.visits
  cancelled := h.cancelled
  spent := h.spent
  status := h.status

/-- To extend a trail is to let what the facts offer wait, whether it was kept
or is looked up, if nothing happens in the lookup. -/
theorem extend_enqueue (quiet : ∀ type, I.during type = {}) (t : Trail) (s : SearchState F L) :
    (s.extend I t).SameButMemo (s.enqueue t (F.expansion L t.tail.type.elementType)) := by
  cases hkept : s.memo.get? t.tail.type.elementType with
  | some links =>
    have hlinks : links = F.expansion L t.tail.type.elementType := Memo.eq_of_get? hkept
    simp only [SearchState.extend, hkept]
    rw [← hlinks]
    exact ⟨rfl, rfl, rfl, rfl, rfl, rfl⟩
  | none =>
    simp only [SearchState.extend, hkept, quiet, Bool.or_false]
    exact ⟨rfl, rfl, rfl, rfl, rfl, rfl⟩

theorem proceed (h : s.SameButMemo s') (quiet : ∀ type, I.during type = {}) (t : Trail) :
    (s.proceed I t).SameButMemo (s'.proceed I t) := by
  rw [SearchState.proceed, SearchState.proceed, h.waiting]
  split
  · exact h
  · have hextend := extend_enqueue quiet t s
    have hextend' := extend_enqueue quiet t s'
    exact (hextend.trans (h.enqueue t _)).trans hextend'.symm

/-- A look leads searches that differ in their memos only to the same place. -/
theorem visit (h : s.SameButMemo s') (quiet : ∀ type, I.during type = {}) (g : Goal) :
    (s.visit I g).SameButMemo (s'.visit I g) := by
  cases running : s.isStopped with
  | true =>
    have running' : s'.isStopped = true := h.isStopped ▸ running
    rwa [visit_of_isOver (.inl running), visit_of_isOver (.inl running')]
  | false =>
    have running' : s'.isStopped = false := h.isStopped ▸ running
    cases hp : s.waiting.pop? with
    | none =>
      have hp' : s'.waiting.pop? = none := h.waiting ▸ hp
      rw [Queue.pop?_eq_none_iff] at hp hp'
      rwa [visit_of_isOver (.inr hp), visit_of_isOver (.inr hp')]
    | some p =>
      obtain ⟨t, w⟩ := p
      have hp' : s'.waiting.pop? = some (t, w) := h.waiting ▸ hp
      rw [visit_eq I g running hp, visit_eq I g running' hp', h.cancelled, h.spent, h.visits, h.findings]
      simp only
      split
      · exact ⟨rfl, rfl, rfl, rfl, rfl, rfl⟩
      · split
        · exact ⟨rfl, rfl, rfl, rfl, rfl, rfl⟩
        · split
          · exact ⟨rfl, rfl, rfl, rfl, rfl, rfl⟩
          · refine proceed ?_ quiet t
            exact ⟨rfl, rfl, rfl, rfl, rfl, h.status⟩

theorem visitTimes (h : s.SameButMemo s') (quiet : ∀ type, I.during type = {}) (g : Goal) (n : Nat) :
    (s.visitTimes I g n).SameButMemo (s'.visitTimes I g n) := by
  induction n generalizing s s' with
  | zero => exact h
  | succ n ih => exact ih (h.visit quiet g)

theorem sweepTimes (h : s.SameButMemo s') (quiet : ∀ type, I.during type = {}) (g : Goal) (n : Nat) :
    (s.sweepTimes I g n).SameButMemo (s'.sweepTimes I g n) := by
  induction n generalizing s s' with
  | zero => exact h
  | succ n ih =>
    have hsweep : (s.sweep I g).SameButMemo (s'.sweep I g) := by
      rw [sweep, sweep, h.waiting]
      exact h.visitTimes quiet g _
    rw [SearchState.sweepTimes, SearchState.sweepTimes, h.isStopped, h.waiting]
    split
    · exact h
    · exact ih hsweep

theorem explore (h : s.SameButMemo s') (quiet : ∀ type, I.during type = {}) (starts : List Link)
    (g : Goal) : (s.explore I starts g).SameButMemo (s'.explore I starts g) := by
  have henter : (s.enter starts).SameButMemo (s'.enter starts) :=
    ⟨rfl, h.findings, h.visits, h.cancelled, h.spent, h.status⟩
  exact henter.sweepTimes quiet g _

theorem pursue (h : s.SameButMemo s') (quiet : ∀ type, I.during type = {}) (starts : List Link)
    (types : List JavaType) : (s.pursue I starts types).SameButMemo (s'.pursue I starts types) := by
  induction types generalizing s s' with
  | nil => exact h
  | cons type types ih =>
    have hexplore := h.explore quiet starts (Goal.ofType type)
    rw [SearchState.pursue, SearchState.pursue, h.findings]
    simp only [hexplore.isStopped]
    split
    · exact ⟨h.waiting, h.findings, h.visits, h.cancelled, h.spent, rfl⟩
    · split
      · exact ih h
      · split
        · exact hexplore
        · exact ih hexplore

/-- Searches that begin with the same findings end alike, whatever each has
looked up before. -/
theorem search (quiet : ∀ type, I.during type = {}) (starts : List Link) (types : List JavaType)
    (findings : s.findings = s'.findings) (cancelled : s.cancelled = s'.cancelled) :
    (s.search I starts types).SameButMemo (s'.search I starts types) := by
  have hbegun : s.begun.SameButMemo s'.begun := ⟨rfl, findings, rfl, cancelled, rfl, rfl⟩
  rw [search_eq, search_eq]
  split
  · exact hbegun
  · exact hbegun.pursue quiet starts types

end SameButMemo

/-! ### A search that keeps nothing -/

theorem memo_extend_of_forgetful {s : SearchState F L} (h : s.memo = .forgetful) (t : Trail) :
    (s.extend I t).memo = .forgetful := by
  simp only [extend, h, Memo.get?_forgetful]
  split
  · exact h
  · exact Memo.add_forgetful t.tail.type.elementType _ (rfl : F.expansion L _ = _)

theorem memo_visit_of_forgetful {s : SearchState F L} (h : s.memo = .forgetful) :
    (s.visit I g).memo = .forgetful := by
  rcases exists_visit_eq I g s with same | ⟨waiting, findings, status, changed | ⟨t, extended⟩⟩
  · rw [same, h]
  · rw [changed]
    exact h
  · rw [extended]
    refine memo_extend_of_forgetful ?_ t
    exact h

theorem Moment.memo_of_forgetful {types : List JavaType} {s u : SearchState F L}
    (h : Moment I starts types s u) (hs : s.memo = .forgetful) : u.memo = .forgetful :=
  h.preserves (P := fun u => u.memo = .forgetful) (fun _ hu => hu)
    (fun _ _ _ _ hu => memo_visit_of_forgetful hu) hs

end SearchState

theorem TypeTable.expansion_elementType (t : TypeTable) (site : Site) (L : Limits) (type : JavaType) :
    (t.facts site).expansion L type.elementType = (t.facts site).expansion L type := by
  have habove : t.supertypes type.elementType = t.supertypes type := by
    rw [supertypes, supertypes, type.elementType_elementType]
  have hmembers : ∀ u : JavaType, (t.facts site).members .value u = t.visibleMembers .value site u :=
    fun _ => rfl
  rw [Facts.expansion, Facts.expansion, hmembers, hmembers, visibleMembers, visibleMembers, membersBy,
    membersBy, habove]
  cases t.supertypes type with
  | nil => rfl
  | cons root above => rfl

/-- **What was looked up before makes no difference.** After any calls, however
they ended, a call in whose lookups nothing happens has the outcome that it has
on a search that has looked up nothing, and on one that keeps nothing and looks
up anew what may follow whenever it extends a trail. What a table offers for an
array is what it offers for the elements. -/
theorem SearchState.memo_transparent (F : Facts) (L : Limits) (earlier : List Call) (c : Call)
    (quiet : ∀ type, c.interruptions.during type = {}) :
    ((earlier.foldl call ({} : SearchState F L)).call c).outcome =
      (({} : SearchState F L).call c).outcome ∧
    ((earlier.foldl call ({} : SearchState F L)).call c).outcome =
      (({ memo := .forgetful } : SearchState F L).call c).outcome ∧
    (∀ u, Moment c.interruptions c.starts c.types
      (({ memo := .forgetful } : SearchState F L).ready c).begun u → u.memo = .forgetful) ∧
    ∀ (t : TypeTable) (site : Site) (type : JavaType),
      (t.facts site).expansion L type.elementType = (t.facts site).expansion L type := by
  have hsame : ∀ s s' : SearchState F L, (s.call c).outcome = (s'.call c).outcome := by
    intro s s'
    have hcall : (s.call c).SameButMemo (s'.call c) :=
      SameButMemo.search quiet c.starts c.types rfl rfl
    exact hcall.outcome_eq
  exact ⟨hsame _ _, hsame _ _, fun u hu => hu.memo_of_forgetful rfl,
    fun t site type => t.expansion_elementType site L type⟩

/-- A call after one that was called off and one that found enough. -/
theorem Circle.transparent_circle :
    let off : Call := {
      starts := [start "x"]
      types := [.named "A"]
      interruptions := { cancelledAt := fun n => n == 2 } }
    let full : Call := {
      starts := [start "x", start "y"]
      types := [.named "B", .named "A"]
      interruptions := .none }
    let last : Call := { starts := [start "y"], types := [.named "A"], interruptions := .none }
    (({} : SearchState facts limits).call off).status = .cancelled ∧
    ((({} : SearchState facts limits).call off).call full).status = .limitReached ∧
    (([off, full].foldl SearchState.call ({} : SearchState facts limits)).call last).outcome =
      (({} : SearchState facts limits).call last).outcome ∧
    (([off, full].foldl SearchState.call ({} : SearchState facts limits)).call last).outcome =
      (({ memo := .forgetful } : SearchState facts limits).call last).outcome ∧
    (({} : SearchState facts limits).call last).outcome.chains.map Chain.printed =
      ["y", "y.bs.a"] := by
  intro off full last
  obtain ⟨hfresh, hanew, -, -⟩ :=
    SearchState.memo_transparent facts limits [off, full] last (fun _ => rfl)
  exact ⟨by decide, by decide, hfresh, hanew, by decide⟩

end CallChain
