/-
# The moments of a search

The states that a search goes through, from its first look at a trail to its
last, goal by goal. What holds of the first state and is kept by every look
holds at every moment (`Moment.preserves`).

Key definition: `SearchState.Moment`.
-/
import CallChain.Search.Run

namespace CallChain.SearchState

variable {F : Facts} {L : Limits}

/-- `Moment I starts types s s'` says that the search for values of the given
types that starts in state `s` is at some moment in state `s'`. -/
inductive Moment (I : Interruptions) (starts : List Link) :
    List JavaType → SearchState F L → SearchState F L → Prop where
  | first (types : List JavaType) (s : SearchState F L) : Moment I starts types s s
  | look {type : JavaType} {types : List JavaType} {s : SearchState F L} (n : Nat)
      (room : s.findings.size < L.maxChains)
      (wanted : L.excludes type.elementType.signature = false) :
      Moment I starts (type :: types) s ((s.enter starts).visitTimes I (Goal.ofType type) n)
  | skip {type : JavaType} {types : List JavaType} {s s' : SearchState F L}
      (unwanted : L.excludes type.elementType.signature = true)
      (h : Moment I starts types s s') : Moment I starts (type :: types) s s'
  | next {type : JavaType} {types : List JavaType} {s s' : SearchState F L}
      (room : s.findings.size < L.maxChains)
      (wanted : L.excludes type.elementType.signature = false)
      (goesOn : (s.explore I starts (Goal.ofType type)).isStopped = false)
      (h : Moment I starts types (s.explore I starts (Goal.ofType type)) s') :
      Moment I starts (type :: types) s s'

theorem visitTimes_add (I : Interruptions) (g : Goal) (m n : Nat) (s : SearchState F L) :
    s.visitTimes I g (m + n) = (s.visitTimes I g m).visitTimes I g n := by
  induction m generalizing s with
  | zero => rw [Nat.zero_add, visitTimes]
  | succ m ih => rw [Nat.succ_add, visitTimes, visitTimes, ih]

theorem visitTimes_succ (I : Interruptions) (g : Goal) (n : Nat) (s : SearchState F L) :
    s.visitTimes I g (n + 1) = (s.visitTimes I g n).visit I g := by
  rw [visitTimes_add, visitTimes, visitTimes]

theorem sweepTimes_eq_visitTimes (I : Interruptions) (g : Goal) (n : Nat) (s : SearchState F L) :
    ∃ m, s.sweepTimes I g n = s.visitTimes I g m := by
  induction n generalizing s with
  | zero => exact ⟨0, rfl⟩
  | succ n ih =>
    rw [sweepTimes]
    split
    · exact ⟨0, rfl⟩
    · obtain ⟨m, hm⟩ := ih (s.sweep I g)
      exact ⟨s.waiting.size + m, by rw [hm, sweep, visitTimes_add]⟩

/-- What every look keeps is kept by any number of looks. -/
theorem visitTimes_preserves {I : Interruptions} {g : Goal} {P : SearchState F L → Prop}
    (keeps : ∀ s, P s → P (s.visit I g)) (n : Nat) {s : SearchState F L} (h : P s) :
    P (s.visitTimes I g n) := by
  induction n generalizing s with
  | zero => exact h
  | succ n ih => exact ih (keeps s h)

/-- What every change of goal keeps, and every look for a goal that is not left
out, holds at every moment. -/
theorem Moment.preserves {I : Interruptions} {starts : List Link} {P : SearchState F L → Prop}
    (enters : ∀ s, P s → P (s.enter starts)) {types : List JavaType}
    (keeps : ∀ type ∈ types, L.excludes type.elementType.signature = false →
      ∀ s, P s → P (s.visit I (Goal.ofType type)))
    {s s' : SearchState F L} (h : Moment I starts types s s') (hs : P s) : P s' := by
  induction h with
  | first => exact hs
  | look n _ wanted =>
    exact visitTimes_preserves (keeps _ List.mem_cons_self wanted) n (enters _ hs)
  | skip _ _ ih => exact ih (fun u hu => keeps u (List.mem_cons_of_mem _ hu)) hs
  | next _ wanted _ _ ih =>
    apply ih (fun u hu => keeps u (List.mem_cons_of_mem _ hu))
    obtain ⟨m, hm⟩ := sweepTimes_eq_visitTimes I (Goal.ofType _) (max 1 L.maxLength) (enter starts _)
    rw [explore, hm]
    exact visitTimes_preserves (keeps _ List.mem_cons_self wanted) m (enters _ hs)

end CallChain.SearchState
