/-
# A search finds the enumeration

A sweep looks at all the trails of one length and leaves those that are longer
by one, so that the sweeps of a search go through the levels of
`Facts.level`. The findings take the chains of each level in turn, each text
once, until there are enough of them; done one by one this is the same as
listing them all, keeping the first of each text, and cutting the list off.
So a search that nothing interrupts, and whose queue always has room, finds
what `Facts.enumeration` says.

Key definitions: `Findings.offerAll`, `Facts.generations`,
`SearchState.HasRoom`.
Key theorem: `Facts.search_eq_enumeration`.
-/
import CallChain.Proofs.Search.Course
import CallChain.Search.Levels
import Mathlib.Data.List.Basic

namespace CallChain

/-! ### Findings up to a limit -/

namespace Findings

/-- The findings with a chain, if it is new and more chains are wanted. -/
def offer (limit : Nat) (f : Findings) (c : Chain) : Findings :=
  if limit ≤ f.size then f else f.push c

/-- The findings with the chains of a list, as far as more are wanted. -/
def offerAll (limit : Nat) (f : Findings) (cs : List Chain) : Findings := cs.foldl (offer limit) f

theorem offerAll_append (limit : Nat) (f : Findings) (cs ds : List Chain) :
    f.offerAll limit (cs ++ ds) = (f.offerAll limit cs).offerAll limit ds := by
  simp [offerAll]

theorem offerAll_of_full {limit : Nat} {f : Findings} (h : limit ≤ f.size) (cs : List Chain) :
    f.offerAll limit cs = f := by
  induction cs with
  | nil => rfl
  | cons c cs ih =>
    rw [offerAll, List.foldl_cons, offer, if_pos h]
    exact ih

theorem size_push_of_isNew {f : Findings} {c : Chain} (h : f.isNew c = true) :
    (f.push c).size = f.size + 1 := by
  simp [push, size, h]

/-- Chains offered one by one are listed in the end as far as their texts are
new and there was room. -/
theorem toList_offerAll (limit : Nat) (f : Findings) (cs : List Chain) :
    (f.offerAll limit cs).toList =
      f.toList ++ (Chain.firstOfEach f.printed cs).take (limit - f.size) := by
  induction cs generalizing f with
  | nil => simp [offerAll, Chain.firstOfEach]
  | cons c cs ih =>
    by_cases hfull : limit ≤ f.size
    · rw [offerAll_of_full hfull, Nat.sub_eq_zero_of_le hfull, List.take_zero, List.append_nil]
    · have hstep : f.offerAll limit (c :: cs) = (f.push c).offerAll limit cs := by
        rw [offerAll, List.foldl_cons, offer, if_neg hfull]
        rfl
      rw [hstep, ih, Chain.firstOfEach]
      cases hn : f.isNew c with
      | true =>
        have hl : limit - f.size = (limit - (f.size + 1)) + 1 := by omega
        rw [if_neg (isNew_iff.1 hn), printed_push_of_isNew hn, toList_push_of_isNew hn,
          size_push_of_isNew hn, hl, List.take_succ_cons]
        simp
      | false => rw [if_pos (isNew_eq_false_iff.1 hn), push_of_not_isNew hn]

end Findings

/-! ### Generations of trails -/

variable {F : Facts} {L : Limits}

/-- The chains for a goal among the trails of a list. -/
def Facts.chainsAmong (F : Facts) (L : Limits) (g : Goal) (ts : List Trail) : List Chain :=
  (ts.filter (F.accepts L g)).map (·.chain g.dims)

/-- Trails with those that come of them in up to `n - 1` extensions, all of one
length before all that are longer. -/
def Facts.generations (F : Facts) (L : Limits) : Nat → List Trail → List Trail
  | 0, _ => []
  | n + 1, ts => ts ++ F.generations L n (ts.flatMap (F.branches L 0))

theorem Facts.generations_nil (n : Nat) : F.generations L n [] = [] := by
  induction n with
  | zero => rfl
  | succ n ih => simp [generations, ih]

theorem Facts.chainsAmong_append (g : Goal) (ts us : List Trail) :
    F.chainsAmong L g (ts ++ us) = F.chainsAmong L g ts ++ F.chainsAmong L g us := by
  simp [chainsAmong]

/-- To judge a trail is to offer its chain, if it is one. -/
theorem Facts.offerAll_chainsAmong_cons {f : Findings} (room : f.size < L.maxChains) (g : Goal)
    (t : Trail) (ts : List Trail) :
    f.offerAll L.maxChains (F.chainsAmong L g (t :: ts)) =
      (F.judge L g t f).offerAll L.maxChains (F.chainsAmong L g ts) := by
  cases ha : F.accepts L g t with
  | true =>
    have hr : ¬ L.maxChains ≤ f.size := by omega
    simp [chainsAmong, ha, judge, Findings.offerAll, Findings.offer, hr]
  | false => simp [chainsAmong, ha, judge]

/-- Below the greatest length a level comes of the one before. -/
theorem Facts.flatMap_branches_level {starts : List Link} {i : Nat} (h : i + 1 < L.maxLength) :
    (F.level L starts i).flatMap (F.branches L 0) = F.level L starts (i + 1) := by
  rw [level]
  apply List.flatMap_congr
  intro t ht
  have hl : ¬ L.maxLength ≤ t.length := by rw [length_of_mem_level ht]; omega
  have h0 : ¬ maxWaiting ≤ 0 := by decide
  simp [branches, hl, h0]

theorem Facts.generations_level {starts : List Link} (n i : Nat) (h : i + n ≤ L.maxLength) :
    F.generations L n (F.level L starts i) = (List.range' i n).flatMap (F.level L starts) := by
  induction n generalizing i with
  | zero => rfl
  | succ n ih =>
    rw [generations, List.range'_succ, List.flatMap_cons]
    cases n with
    | zero => rfl
    | succ n => rw [flatMap_branches_level (by omega), ih (i + 1) (by omega)]

theorem Facts.chainsAmong_generations (starts : List Link) (g : Goal) :
    F.chainsAmong L g (F.generations L L.maxLength (F.level L starts 0)) = F.answers L starts g := by
  rw [generations_level _ _ (by omega), ← List.range_eq_range']
  rfl

theorem Facts.level_of_no_starts (n : Nat) : F.level L [] n = [] := by
  induction n with
  | zero => rfl
  | succ n ih => simp [level, ih]

namespace SearchState

variable {I : Interruptions} {g : Goal} {starts : List Link}

/-! ### A search whose queue has room -/

/-- When the next trail leaves the queue and may get longer, not too many are
left in it. -/
def HasRoom (s : SearchState F L) : Prop :=
  s.isStopped = false → ∀ t w, s.waiting.pop? = some (t, w) → t.length < L.maxLength →
    w.size < maxWaiting

theorem branches_of_hasRoom {s : SearchState F L} (h : s.HasRoom) (running : s.isStopped = false)
    {t : Trail} {rest : List Trail} (next : s.waiting.toList = t :: rest) :
    F.branches L rest.length t = F.branches L 0 t := by
  apply Facts.branches_of_lt
  intro hl
  cases hp : s.waiting.pop? with
  | none => simp [Queue.pop?_eq_none_iff.1 hp] at next
  | some p =>
    obtain ⟨u, w⟩ := p
    have := Queue.toList_of_pop? hp
    rw [next, List.cons.injEq] at this
    obtain ⟨rfl, rfl⟩ := this
    rw [Queue.length_toList]
    exact h running t w hp hl

/-- The search has found as many chains as were asked for. -/
def IsFull (s : SearchState F L) : Prop := s.status = .limitReached ∧ L.maxChains ≤ s.findings.size

/-- The search goes on, and more chains are wanted. -/
def GoesOn (s : SearchState F L) : Prop := s.status = .exhausted ∧ s.findings.size < L.maxChains

theorem IsFull.isOver {s : SearchState F L} (h : s.IsFull) : s.IsOver := by
  left
  simp [isStopped, h.1]

theorem GoesOn.isStopped {s : SearchState F L} (h : s.GoesOn) : s.isStopped = false :=
  isStopped_eq_false_iff.2 h.1

/-- Looks at the trails at the front of the queue offer their chains, and if
the search then goes on, let what comes of them wait in their order. -/
theorem visitTimes_front (ts rest : List Trail) {s : SearchState F L} (goesOn : s.GoesOn)
    (waiting : s.waiting.toList = ts ++ rest) (roomy : ∀ n, (s.visitTimes I g n).HasRoom)
    (calm : (s.visitTimes I g ts.length).status.isInterruption = false) :
    (s.visitTimes I g ts.length).findings =
        s.findings.offerAll L.maxChains (F.chainsAmong L g ts) ∧
      ((s.visitTimes I g ts.length).IsFull ∨ (s.visitTimes I g ts.length).GoesOn ∧
        (s.visitTimes I g ts.length).waiting.toList = rest ++ ts.flatMap (F.branches L 0)) := by
  induction ts generalizing s rest with
  | nil => exact ⟨rfl, .inr ⟨goesOn, by simpa [visitTimes] using waiting⟩⟩
  | cons t ts ih =>
    rw [Facts.offerAll_chainsAmong_cons goesOn.2]
    simp only [List.length_cons, visitTimes] at calm ⊢
    cases look_visit I g s with
    | rests ended same =>
      rcases ended with h | h
      · simp [goesOn.isStopped] at h
      · simp [h] at waiting
    | halts t' rest' running next status =>
      rw [visitTimes_of_isOver (.inl (isStopped_of_isInterruption status)), status] at calm
      cases calm
    | fills t' rest' running next status waiting' accepted findings full =>
      obtain ⟨rfl, rfl⟩ : t' = t ∧ rest' = ts ++ rest := by simpa [waiting, eq_comm] using next
      have hfull : (s.visit I g).IsFull := ⟨status, full⟩
      rw [visitTimes_of_isOver hfull.isOver, ← findings, Findings.offerAll_of_full full]
      exact ⟨rfl, .inl hfull⟩
    | goesOn t' rest' running next status waiting' findings room =>
      obtain ⟨rfl, rfl⟩ : t' = t ∧ rest' = ts ++ rest := by simpa [waiting, eq_comm] using next
      have room' : (s.visit I g).findings.size < L.maxChains := by
        cases ha : F.accepts L g t' with
        | true => exact room ha
        | false => simpa [findings, Facts.judge, ha] using goesOn.2
      rw [branches_of_hasRoom (roomy 0) running next, List.append_assoc] at waiting'
      obtain ⟨hf, hu⟩ := ih (rest ++ F.branches L 0 t') ⟨status, room'⟩ waiting'
        (fun n => roomy (n + 1)) calm
      rw [hf, findings]
      exact ⟨rfl, by simpa [List.append_assoc] using hu⟩

/-- Sweeps offer the chains of as many generations of the trails that wait. -/
theorem sweepTimes_findings (n : Nat) {s : SearchState F L} (goesOn : s.GoesOn)
    (roomy : ∀ n, (s.visitTimes I g n).HasRoom)
    (calm : (s.sweepTimes I g n).status.isInterruption = false) :
    (s.sweepTimes I g n).findings = s.findings.offerAll L.maxChains
        (F.chainsAmong L g (F.generations L n s.waiting.toList)) ∧
      ((s.sweepTimes I g n).IsFull ∨ (s.sweepTimes I g n).GoesOn) := by
  induction n generalizing s with
  | zero => exact ⟨rfl, .inr goesOn⟩
  | succ n ih =>
    by_cases hw : s.waiting.toList = []
    · rw [sweepTimes_of_isOver (.inr hw), hw, Facts.generations_nil]
      exact ⟨rfl, .inr goesOn⟩
    · have hover : ¬ s.IsOver := by simp [IsOver, hw, goesOn.isStopped]
      rw [sweepTimes_succ_of_not_isOver hover] at calm ⊢
      have hs : s.sweep I g = s.visitTimes I g s.waiting.toList.length := by
        rw [sweep, Queue.length_toList]
      have calm' : (s.visitTimes I g s.waiting.toList.length).status.isInterruption = false := by
        by_contra hi
        rw [← hs, Bool.not_eq_false] at hi
        rw [isInterruption_sweepTimes hi] at calm
        cases calm
      obtain ⟨hf, hu⟩ := visitTimes_front _ [] goesOn (List.append_nil _).symm roomy calm'
      rw [← hs] at hf hu
      rw [Facts.generations, Facts.chainsAmong_append, Findings.offerAll_append, ← hf]
      rcases hu with hfull | ⟨hgo, hwait⟩
      · rw [sweepTimes_of_isOver hfull.isOver, Findings.offerAll_of_full hfull.2]
        exact ⟨rfl, .inl hfull⟩
      · rw [List.nil_append] at hwait
        rw [← hwait]
        refine ih hgo (fun m => ?_) calm
        rw [hs, ← visitTimes_add]
        exact roomy _

theorem explore_findings (hlen : 1 ≤ L.maxLength) {s : SearchState F L} (goesOn : s.GoesOn)
    (roomy : ∀ n, ((s.enter starts).visitTimes I g n).HasRoom)
    (calm : (s.explore I starts g).status.isInterruption = false) :
    (s.explore I starts g).findings =
        s.findings.offerAll L.maxChains (F.answers L starts g) ∧
      ((s.explore I starts g).IsFull ∨ (s.explore I starts g).GoesOn) := by
  have hmax : max 1 L.maxLength = L.maxLength := by omega
  have hwait : (s.enter starts).waiting.toList = F.level L starts 0 := waiting_enter starts s
  unfold explore at calm ⊢
  rw [hmax] at calm ⊢
  have := sweepTimes_findings L.maxLength (s := s.enter starts) goesOn roomy calm
  rwa [hwait, Facts.chainsAmong_generations] at this

/-- The search for several types offers the chains of the enumeration, type by
type. -/
theorem pursue_findings (hlen : 1 ≤ L.maxLength) (types : List JavaType) {s : SearchState F L}
    (running : s.status = .exhausted) (roomy : ∀ u, Moment I starts types s u → u.HasRoom)
    (calm : (s.pursue I starts types).status.isInterruption = false) :
    (s.pursue I starts types).findings = s.findings.offerAll L.maxChains
      ((types.filter fun type => !L.excludes type.elementType.signature).flatMap fun type =>
        F.answers L starts (Goal.ofType type)) := by
  induction types generalizing s with
  | nil => rfl
  | cons type types ih =>
    unfold pursue at calm ⊢
    by_cases hfull : L.maxChains ≤ s.findings.size
    · rw [if_pos hfull, Findings.offerAll_of_full hfull]
      rfl
    · rw [if_neg hfull] at calm ⊢
      cases hx : L.excludes type.elementType.signature with
      | true =>
        rw [hx, if_pos rfl] at calm
        rw [if_pos rfl, List.filter_cons_of_neg (by simp [hx])]
        exact ih running (fun u hu => roomy u (.skip hx hu)) calm
      | false =>
        rw [hx, if_neg (by simp)] at calm
        rw [if_neg (by simp), List.filter_cons_of_pos (by simp [hx]), List.flatMap_cons,
          Findings.offerAll_append]
        have room : s.findings.size < L.maxChains := by omega
        simp only at calm ⊢
        have calm' : (s.explore I starts (Goal.ofType type)).status.isInterruption = false := by
          by_contra hi
          rw [Bool.not_eq_false] at hi
          rw [if_pos (isStopped_of_isInterruption hi), hi] at calm
          cases calm
        obtain ⟨hf, hu⟩ := explore_findings hlen ⟨running, room⟩
          (fun n => roomy _ (.look n room hx)) calm'
        rw [← hf]
        -- the findings are full, or the search goes on to the next type
        rcases hu with h | h
        · rw [if_pos (by simp [isStopped, h.1]), Findings.offerAll_of_full h.2]
        · rw [h.isStopped, if_neg (by simp)] at calm
          rw [h.isStopped, if_neg (by simp)]
          exact ih h.1 (fun u hu => roomy u (.next room hx h.isStopped hu)) calm

/-! ### A queue that cannot grow -/

/-- Where every link has at most one that may follow it, the queue is never
longer than the starts are many. -/
theorem length_waiting_le_of_narrow (narrow : ∀ type, (F.expansion L type).length ≤ 1)
    {types : List JavaType} {u : SearchState F L} (h : Moment I starts types {} u) :
    u.waiting.toList.length ≤ starts.length := by
  refine h.preserves (P := fun u => u.waiting.toList.length ≤ starts.length) ?_ ?_ (Nat.zero_le _)
  · intro s _
    simpa [enter, Limits.openings] using List.length_filter_le _ starts
  · intro type _ _ s hs
    cases look_visit I (Goal.ofType type) s with
    | rests ended same => rwa [same]
    | halts t rest running next status waiting =>
      rw [next, List.length_cons] at hs
      exact waiting ▸ Nat.le_of_succ_le hs
    | fills t rest running next status waiting =>
      rw [next, List.length_cons] at hs
      exact waiting ▸ Nat.le_of_succ_le hs
    | goesOn t rest running next status waiting =>
      rw [next, List.length_cons] at hs
      have hb : (F.branches L rest.length t).length ≤ 1 :=
        Nat.le_trans (Facts.length_branches_le _ t) (narrow _)
      rw [waiting, List.length_append]
      omega

theorem hasRoom_of_narrow (narrow : ∀ type, (F.expansion L type).length ≤ 1)
    (few : starts.length ≤ maxWaiting) {types : List JavaType} {u : SearchState F L}
    (h : Moment I starts types {} u) : u.HasRoom := by
  intro _ t w hp _
  have := length_waiting_le_of_narrow narrow h
  rw [Queue.toList_of_pop? hp, List.length_cons, Queue.length_toList] at this
  omega

end SearchState

/-- **A search finds the enumeration.** A search that nothing interrupts, and
in whose course not too many trails are ever left when one that may get longer
leaves the queue, finds exactly the chains of the levels, goal by goal, of each
text the first, as many as were asked for. -/
theorem Facts.search_eq_enumeration (F : Facts) (L : Limits) (I : Interruptions)
    (starts : List Link) (types : List JavaType) (hmax : 1 ≤ L.maxChains) (hlen : 1 ≤ L.maxLength)
    (calm : (F.search L I starts types).status.isInterruption = false)
    (roomy : ∀ u, SearchState.Moment I starts types ({} : SearchState F L) u → u.HasRoom) :
    (F.search L I starts types).chains = F.enumeration L starts types := by
  cases starts with
  | nil =>
    have hnone : ∀ g, F.answers L [] g = [] := by simp [answers, level_of_no_starts]
    have hnil : F.enumeration L [] types = [] := by
      rw [enumeration]
      simp only [hnone, List.flatMap_eq_nil_iff.2 fun _ _ => rfl, Chain.firstOfEach, List.take_nil]
    rw [hnil]
    simp [search, SearchState.search, SearchState.outcome]
  | cons l ls =>
    have hs : ({} : SearchState F L).search I (l :: ls) types =
        ({} : SearchState F L).pursue I (l :: ls) types := by
      rw [SearchState.search_eq, if_neg (by simp; omega)]
      rfl
    simp only [search, SearchState.outcome, hs] at calm ⊢
    rw [SearchState.pursue_findings hlen types rfl roomy calm, Findings.toList_offerAll]
    rfl

theorem Circle.length_members_le {type : JavaType} {ms : List Member}
    (h : facts.members .value type = .ok ms) : ms.length ≤ 1 := by
  simp only [facts] at h
  split at h
  · cases h
    exact Nat.le_refl 1
  · split at h
    · cases h
      exact Nat.le_refl 1
    · cases h

theorem Circle.length_expansion_le (type : JavaType) : (facts.expansion limits type).length ≤ 1 :=
  Facts.length_expansion_le fun _ h => length_members_le h

/-- From two locals, with values of either type wanted, five chains of six. -/
theorem Circle.search_circle :
    (facts.search limits .none [start "x", start "z", start "y"] [.named "B", .named "A"]).chains =
      facts.enumeration limits [start "x", start "z", start "y"] [.named "B", .named "A"] ∧
    (facts.enumeration limits [start "x", start "z", start "y"] [.named "B", .named "A"]).map
      Chain.printed = ["x.bs", "y.bs", "x", "y", "x.bs.a"] := by
  refine ⟨facts.search_eq_enumeration limits .none _ _ (by decide) (by decide) (by decide) ?_, by decide⟩
  intro u h
  exact SearchState.hasRoom_of_narrow length_expansion_le (by decide) h

end CallChain
