/-
# Shorter chains are found first

While a search pursues one goal, the trails that wait have at most two
lengths: those of `n` links stand before those of `n + 1`. A trail of `n` links
leaves the queue and lets trails of `n + 1` join it at its back; once the last
one has left, those of `n + 1` are the shorter ones. So what is judged never
gets shorter, and neither do the chains found. Where the queue is full, a trail
is not extended, which takes nothing out of this order.

Key definitions: `Trail.InBand`, `Findings.Rising`, `SearchState.Orderly`.
Key theorems: `SearchState.Look.orderly`, `SearchState.pairwise_length_le`.
-/
import CallChain.Proofs.Search.Course

namespace CallChain

variable {F : Facts} {L : Limits}

/-! ### Two lengths -/

/-- The trails have `n` links, but for some at the back that have one more. -/
def Trail.InBand (n : Nat) (ts : List Trail) : Prop :=
  ∃ short long, ts = short ++ long ∧ (∀ t ∈ short, t.length = n) ∧ ∀ t ∈ long, t.length = n + 1

/-- The first of the trails has the least length, and the others follow it in
the same way. -/
theorem Trail.InBand.of_cons {n : Nat} {t : Trail} {ts : List Trail} (h : InBand n (t :: ts)) :
    n ≤ t.length ∧ InBand t.length ts := by
  obtain ⟨short, long, heq, hshort, hlong⟩ := h
  cases short with
  | nil =>
    -- no trail of `n` links is left: those of one more are the shorter ones now
    rw [List.nil_append] at heq
    rw [← heq, List.forall_mem_cons] at hlong
    refine ⟨by omega, ts, [], (List.append_nil ts).symm, fun u hu => ?_, by simp⟩
    rw [hlong.1, hlong.2 u hu]
  | cons u short =>
    obtain ⟨rfl, rfl⟩ := List.cons.inj heq
    rw [List.forall_mem_cons] at hshort
    rw [hshort.1]
    exact ⟨Nat.le_refl n, short, long, rfl, hshort.2, hlong⟩

theorem Trail.InBand.append {n : Nat} {ts us : List Trail} (h : InBand n ts)
    (longer : ∀ u ∈ us, u.length = n + 1) : InBand n (ts ++ us) := by
  obtain ⟨short, long, rfl, hshort, hlong⟩ := h
  refine ⟨short, long ++ us, List.append_assoc _ _ _, hshort, ?_⟩
  rw [List.forall_mem_append]
  exact ⟨hlong, longer⟩

/-! ### Findings that do not get shorter -/

/-- The chains found are in order of their lengths and have no more than `n`
links. -/
structure Findings.Rising (n : Nat) (f : Findings) : Prop where
  pairwise : f.toList.Pairwise fun c d => c.length ≤ d.length
  length_le : ∀ c ∈ f.toList, c.length ≤ n

theorem Findings.Rising.mono {m n : Nat} {f : Findings} (h : f.Rising m) (hle : m ≤ n) : f.Rising n :=
  ⟨h.pairwise, fun c hc => Nat.le_trans (h.length_le c hc) hle⟩

theorem Findings.Rising.push {f : Findings} {c : Chain} (h : f.Rising c.length) :
    (f.push c).Rising c.length := by
  cases hnew : f.isNew c with
  | false =>
    rw [push_of_not_isNew hnew]
    exact h
  | true =>
    have hlist := toList_push_of_isNew hnew
    constructor
    case pairwise =>
      rw [hlist, List.pairwise_append]
      refine ⟨h.pairwise, List.pairwise_singleton _ _, fun d hd e he => ?_⟩
      rw [List.mem_singleton.1 he]
      exact h.length_le d hd
    case length_le =>
      rw [hlist, List.forall_mem_append]
      exact ⟨h.length_le, fun d hd => List.mem_singleton.1 hd ▸ Nat.le_refl _⟩

theorem Findings.Rising.judge {f : Findings} {t : Trail} (h : f.Rising t.length) (g : Goal) :
    (F.judge L g t f).Rising t.length := by
  have hlength : (t.chain g.dims).length = t.length := t.length_links
  unfold Facts.judge
  split
  · rw [← hlength] at h ⊢
    exact h.push
  · exact h

namespace SearchState

variable {I : Interruptions} {g : Goal} {starts : List Link}

/-! ### One look, and many -/

/-- The trails that wait have two lengths, the shorter ones first, and what is
found is no longer than these. -/
def Orderly (s : SearchState F L) : Prop :=
  ∃ n, Trail.InBand n s.waiting.toList ∧ s.findings.Rising n

/-- A look keeps a search orderly. -/
theorem Look.orderly {s s' : SearchState F L} (look : Look g s s') (h : s.Orderly) : s'.Orderly := by
  obtain ⟨n, hband, hrising⟩ := h
  -- the trail that leaves the queue says what the shorter length is from now on
  have hnext : ∀ t rest, s.waiting.toList = t :: rest →
      Trail.InBand t.length rest ∧ s.findings.Rising t.length ∧
        (F.judge L g t s.findings).Rising t.length := by
    intro t rest next
    obtain ⟨hle, hrest⟩ := (next ▸ hband).of_cons
    have hrising' := hrising.mono hle
    exact ⟨hrest, hrising', hrising'.judge g⟩
  cases look with
  | rests ended same =>
    rw [same]
    exact ⟨n, hband, hrising⟩
  | halts t rest running next status waiting findings =>
    obtain ⟨hrest, hkept, hjudged⟩ := hnext t rest next
    refine ⟨t.length, waiting ▸ hrest, ?_⟩
    rcases findings with hf | hf
    · exact hf ▸ hkept
    · exact hf ▸ hjudged
  | fills t rest running next status waiting accepted findings =>
    obtain ⟨hrest, -, hjudged⟩ := hnext t rest next
    exact ⟨t.length, waiting ▸ hrest, findings ▸ hjudged⟩
  | goesOn t rest running next status waiting findings =>
    obtain ⟨hrest, -, hjudged⟩ := hnext t rest next
    refine ⟨t.length, ?_, findings ▸ hjudged⟩
    rw [waiting]
    exact hrest.append fun u hu => (Facts.length_of_mem_branches hu).1

theorem orderly_enter (starts : List Link) {s : SearchState F L} (fresh : s.findings.toList = []) :
    (s.enter starts).Orderly := by
  refine ⟨1, ⟨_, [], (List.append_nil _).symm, fun t ht => length_of_mem_enter ht, by simp⟩, ?_⟩
  have hnone : (s.enter starts).findings.toList = [] := fresh
  constructor
  case pairwise =>
    rw [hnone]
    exact List.Pairwise.nil
  case length_le =>
    rw [hnone]
    simp

theorem orderly_visitTimes (n : Nat) {s : SearchState F L} (fresh : s.findings.toList = []) :
    ((s.enter starts).visitTimes I g n).Orderly :=
  visitTimes_preserves (fun u hu => (look_visit I g u).orderly hu) n (orderly_enter starts fresh)

/-! ### The search for one type -/

/-- At each moment of a search for one type, it has found what it had before,
or what it has after some looks. -/
theorem Moment.findings_of_singleton {type : JavaType} {s u : SearchState F L}
    (h : Moment I starts [type] s u) :
    u.findings = s.findings ∨
      ∃ n, u.findings = ((s.enter starts).visitTimes I (Goal.ofType type) n).findings := by
  cases h with
  | first => exact .inl rfl
  | look n => exact .inr ⟨n, rfl⟩
  | skip _ h =>
    cases h with
    | first => exact .inl rfl
  | next _ _ _ h =>
    cases h with
    | first =>
      obtain ⟨n, hn⟩ := explore_eq_visitTimes I starts (Goal.ofType type) s
      exact .inr ⟨n, congrArg SearchState.findings hn⟩

theorem Moment.pairwise_length_le {type : JavaType} {s u : SearchState F L}
    (h : Moment I starts [type] s u) (fresh : s.findings.toList = []) :
    u.findings.toList.Pairwise fun c d => c.length ≤ d.length := by
  rcases h.findings_of_singleton with same | ⟨n, later⟩
  · rw [same, fresh]
    exact List.Pairwise.nil
  · have horderly : ((s.enter starts).visitTimes I (Goal.ofType type) n).Orderly :=
      orderly_visitTimes n fresh
    obtain ⟨m, -, hrising⟩ := horderly
    rw [later]
    exact hrising.pairwise

/-- **Shorter chains are found first.** A search for one type that had found
nothing before has its chains in order of their lengths, at every moment and in
the end. -/
theorem pairwise_length_le {type : JavaType} {s u : SearchState F L} (fresh : s.findings.toList = [])
    (h : Moment I starts [type] s.begun u ∨ u = s.search I starts [type]) :
    u.findings.toList.Pairwise fun c d => c.length ≤ d.length := by
  have hfresh : s.begun.findings.toList = [] := fresh
  rcases h with h | rfl
  · exact h.pairwise_length_le hfresh
  · rw [search_eq]
    split
    · rw [hfresh]
      exact List.Pairwise.nil
    · obtain ⟨v, hv, he⟩ : ∃ v, Moment I starts [type] s.begun v ∧
          (s.begun.pursue I starts [type]).findings = v.findings :=
        exists_moment_findings_eq [type] s.begun
      rw [he]
      exact hv.pairwise_length_le hfresh

end SearchState

end CallChain
