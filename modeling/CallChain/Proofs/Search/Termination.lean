/-
# Every search comes to an end

No chain uses a member twice, and all members after its start are among those
declared. So a trail has at most one link more than there are keys of declared
members, also where types lead back to each other and whatever the limits. Only
so many trails can come of one that waits; each look leaves fewer of these to
be looked at (`SearchState.Look.isOver_or_load_lt`), so that after a number of
looks that hangs on the starts and the declared members alone nothing is left.

Key definitions: `Facts.DrawsFrom`, `Member.keys`, `maxLooks`,
`TypeTable.stored`.
Key theorems: `Facts.Admits.length_le`, `SearchState.isOver_visitTimes_of_load_le`,
`TypeTable.search_ends`.
-/
import CallChain.Proofs.Search.Limit
import CallChain.Proofs.Search.Truncation
import CallChain.Proofs.Search.Validity
import Mathlib.Data.Finset.Card
import Mathlib.Data.List.Perm.Subperm

namespace CallChain

variable {F : Facts} {L : Limits} {pool : List Member}

/-! ### Members from a pool -/

/-- The keys of some members, each once. -/
def Member.keys (ms : List Member) : Finset String := (ms.map key).toFinset

/-- Every value has members of the pool only, and no two for one slot. -/
def Facts.DrawsFrom (F : Facts) (pool : List Member) : Prop :=
  ∀ type ms, F.members .value type = .ok ms → (ms.map Member.slot).Nodup ∧ ms ⊆ pool

/-- The members declared in the types of a table. -/
def TypeTable.stored (t : TypeTable) : List Member := t.decls.flatMap (·.members)

theorem TypeTable.drawsFrom_stored (t : TypeTable) (site : Site) :
    (t.facts site).DrawsFrom t.stored := by
  intro type ms h
  obtain ⟨hslots, hdeclared⟩ := membersBy_eq_ok h
  refine ⟨hslots, fun m hm => ?_⟩
  obtain ⟨name, ds, hds, hmem⟩ := hdeclared m hm
  unfold declared at hds
  cases hfind : t.find? name with
  | none => simp [hfind] at hds
  | some d =>
    simp only [hfind, Except.ok.injEq] at hds
    exact List.mem_flatMap.2 ⟨d, mem_of_find? hfind, hds ▸ hmem⟩

theorem Facts.DrawsFrom.member_mem (drawn : F.DrawsFrom pool) {type : JavaType} {l : Link}
    (h : F.Offers type l) : l.member ∈ pool := by
  obtain ⟨ms, hms, m, hm, memberType, -, hl⟩ := h
  rw [Link.member_of_make hl]
  exact (drawn type ms hms).2 hm

/-- A row of links that a search may build is as long as there are keys, with
one more for its start. -/
theorem Facts.Admits.length_le {starts ls : List Link} (h : F.Admits L starts ls)
    (drawn : F.DrawsFrom pool) : ls.length ≤ 1 + (Member.keys pool).card := by
  have hdistinct : (ls.tail.map fun l => l.member.key).Nodup := by
    rw [List.map_tail]
    exact h.distinct.tail
  have hpool : ∀ l ∈ ls.tail, l.member ∈ pool :=
    (isChain_and_iff.1 (h.follows.imp fun _ _ hoffers => ⟨hoffers, drawn.member_mem hoffers⟩)).2
  have hkeys : (ls.tail.map fun l => l.member.key).toFinset ⊆ Member.keys pool := by
    intro key hkey
    rw [List.mem_toFinset, List.mem_map] at hkey
    obtain ⟨l, hl, rfl⟩ := hkey
    exact List.mem_toFinset.2 (List.mem_map.2 ⟨l.member, hpool l hl, rfl⟩)
  have htail : ls.tail.length ≤ (Member.keys pool).card := by
    calc ls.tail.length
        = (ls.tail.map fun l => l.member.key).toFinset.card := by
          rw [List.toFinset_card_of_nodup hdistinct, List.length_map]
      _ ≤ (Member.keys pool).card := Finset.card_le_card hkeys
  rw [List.length_tail] at htail
  omega

theorem Facts.DrawsFrom.length_expansion_le (drawn : F.DrawsFrom pool) (type : JavaType) :
    (F.expansion L type).length ≤ pool.length := by
  refine Facts.length_expansion_le fun ms hms => ?_
  obtain ⟨hslots, hsub⟩ := drawn type ms hms
  exact (List.subperm_of_subset hslots.of_map hsub).length_le

/-! ### How many looks are left -/

/-- How many looks a trail takes, with all that comes of it, if it may get `n`
links longer and at most `width` links may follow another. -/
def growth (width : Nat) : Nat → Nat
  | 0 => 1
  | n + 1 => 1 + width * growth width n

/-- How many looks the trails of a list take, with all that comes of them, if
none may have more than `depth` links. -/
def load (width depth : Nat) : List Trail → Nat
  | [] => 0
  | t :: ts => growth width (depth - t.length) + load width depth ts

theorem one_le_growth (width : Nat) : ∀ n, 1 ≤ growth width n
  | 0 => Nat.le_refl 1
  | _ + 1 => Nat.le_add_right 1 _

theorem load_append (width depth : Nat) : ∀ ts us : List Trail,
    load width depth (ts ++ us) = load width depth ts + load width depth us
  | [], us => by rw [List.nil_append, load, Nat.zero_add]
  | t :: ts, us => by
    rw [List.cons_append, load, load, load_append width depth ts us]
    omega

theorem load_of_length_eq {width depth n : Nat} : ∀ {ts : List Trail},
    (∀ t ∈ ts, t.length = n) →
    load width depth ts = ts.length * growth width (depth - n)
  | [], _ => by rw [load, List.length_nil, Nat.zero_mul]
  | t :: ts, h => by
    rw [List.forall_mem_cons] at h
    rw [load, h.1, load_of_length_eq h.2, List.length_cons, Nat.succ_mul]
    omega

/-- What comes of a trail takes fewer looks than it does with all that. -/
theorem load_branches_lt {width depth rest : Nat} {t : Trail}
    (narrow : (F.branches L rest t).length ≤ width)
    (short : ∀ u ∈ F.branches L rest t, u.length ≤ depth) :
    load width depth (F.branches L rest t) < growth width (depth - t.length) := by
  have hlengths : ∀ u ∈ F.branches L rest t, u.length = t.length + 1 :=
    fun u hu => (Facts.length_of_mem_branches hu).1
  cases hb : F.branches L rest t with
  | nil => exact one_le_growth width _
  | cons u us =>
    have hu : u ∈ F.branches L rest t := hb ▸ List.mem_cons_self
    have hdepth : t.length + 1 ≤ depth := hlengths u hu ▸ short u hu
    obtain ⟨k, rfl⟩ := Nat.exists_eq_add_of_le hdepth
    have hleft : t.length + 1 + k - t.length = k + 1 := by omega
    calc load width (t.length + 1 + k) (u :: us)
        = (F.branches L rest t).length * growth width k := by
          rw [← hb, load_of_length_eq hlengths, Nat.add_sub_cancel_left]
      _ ≤ width * growth width k := Nat.mul_le_mul_right _ narrow
      _ < growth width (t.length + 1 + k - t.length) := by
          rw [hleft, growth]
          omega

/-- How many looks a search for one goal takes at most. -/
def maxLooks (pool : List Member) (starts : List Link) : Nat :=
  starts.length * growth pool.length (Member.keys pool).card

namespace SearchState

variable {I : Interruptions} {g : Goal} {starts : List Link}

/-- A look ends a search, or leaves fewer to be taken. -/
theorem Look.isOver_or_load_lt {s s' : SearchState F L} (look : Look g s s')
    (drawn : F.DrawsFrom pool) (waits : ∀ t ∈ s.waiting.toList, F.MayWait L starts t) :
    s'.IsOver ∨ load pool.length (1 + (Member.keys pool).card) s'.waiting.toList <
      load pool.length (1 + (Member.keys pool).card) s.waiting.toList := by
  cases look with
  | rests ended same => exact .inl (same ▸ ended)
  | halts t rest running next status => exact .inl (.inl (isStopped_of_isInterruption status))
  | fills t rest running next status => exact .inl (.inl (by simp [isStopped, status]))
  | goesOn t rest running next status waiting =>
    right
    have ht : F.MayWait L starts t := waits t (next ▸ List.mem_cons_self)
    have hnarrow : (F.branches L rest.length t).length ≤ pool.length :=
      Nat.le_trans (Facts.length_branches_le _ t) (drawn.length_expansion_le _)
    have hshort : ∀ u ∈ F.branches L rest.length t, u.length ≤ 1 + (Member.keys pool).card := by
      intro u hu
      rw [← Trail.length_links]
      exact (ht.branches hu).1.length_le drawn
    have hless := load_branches_lt hnarrow hshort
    rw [waiting, next, load_append, load]
    omega

/-- As many looks as are left end the search. -/
theorem isOver_visitTimes_of_load_le (drawn : F.DrawsFrom pool) (n : Nat) {s : SearchState F L}
    (waits : ∀ t ∈ s.waiting.toList, F.MayWait L starts t)
    (enough : load pool.length (1 + (Member.keys pool).card) s.waiting.toList ≤ n) :
    (s.visitTimes I g n).IsOver := by
  induction n generalizing s with
  | zero =>
    right
    rw [visitTimes]
    cases hw : s.waiting.toList with
    | nil => rfl
    | cons t ts =>
      have hone := one_le_growth pool.length (1 + (Member.keys pool).card - t.length)
      rw [hw, load] at enough
      omega
  | succ n ih =>
    have look := look_visit I g s
    rw [visitTimes]
    rcases look.isOver_or_load_lt drawn waits with ended | less
    · rwa [visitTimes_of_isOver ended]
    · exact ih (look.mayWait waits) (by omega)

/-- The search for one goal is over after the looks that the pool allows. -/
theorem isOver_visitTimes_enter (drawn : F.DrawsFrom pool) (I : Interruptions) (starts : List Link)
    (g : Goal) (s : SearchState F L) :
    ((s.enter starts).visitTimes I g (maxLooks pool starts)).IsOver := by
  have hones : ∀ t ∈ (s.enter starts).waiting.toList, t.length = 1 := fun _ => length_of_mem_enter
  have hfew : (s.enter starts).waiting.toList.length ≤ starts.length := by
    rw [waiting_enter, List.length_map]
    exact List.length_filter_le _ _
  refine isOver_visitTimes_of_load_le drawn _ (mayWait_enter starts s) ?_
  rw [load_of_length_eq hones, Nat.add_sub_cancel_left]
  exact Nat.mul_le_mul_right _ hfew

theorem explore_eq_visitTimes_maxLooks (drawn : F.DrawsFrom pool) (I : Interruptions)
    (starts : List Link) (g : Goal) (s : SearchState F L) :
    s.explore I starts g = (s.enter starts).visitTimes I g (maxLooks pool starts) := by
  obtain ⟨n, hn⟩ := explore_eq_visitTimes I starts g s
  have ended : ((s.enter starts).visitTimes I g n).IsOver := hn ▸ isOver_explore starts s
  have ended' := isOver_visitTimes_enter drawn I starts g s
  rw [hn]
  rcases Nat.le_total n (maxLooks pool starts) with hle | hle
  · exact (visitTimes_of_le ended hle).symm
  · exact visitTimes_of_le ended' hle

/-! ### From the first type to the last -/

theorem isOver_pursue (types : List JavaType) {s : SearchState F L} (h : s.waiting.toList = []) :
    (s.pursue I starts types).IsOver := by
  induction types generalizing s with
  | nil => exact .inr h
  | cons type types ih =>
    rw [pursue]
    split
    · exact .inl rfl
    · split
      · exact ih h
      · have ended := isOver_explore (I := I) (g := Goal.ofType type) starts s
        simp only
        split
        · exact ended
        · rename_i goesOn
          exact ih (ended.resolve_left goesOn)

/-- What grows by one at most in a look grows by no more in a search than there
are looks for each type. -/
theorem measure_pursue_le (drawn : F.DrawsFrom pool) (I : Interruptions) (starts : List Link)
    (μ : SearchState F L → Nat) (enters : ∀ s, μ (s.enter starts) = μ s)
    (stops : ∀ s, μ (s.stop .limitReached) = μ s) (looks : ∀ g s, μ (s.visit I g) ≤ μ s + 1)
    (types : List JavaType) (s : SearchState F L) :
    μ (s.pursue I starts types) ≤ μ s + types.length * maxLooks pool starts := by
  have hlooks : ∀ g n s, μ (s.visitTimes I g n) ≤ μ s + n := by
    intro g n
    induction n with
    | zero => exact fun s => Nat.le_refl _
    | succ n ih =>
      intro s
      have hvisit := looks g s
      have hrest := ih (s.visit I g)
      rw [visitTimes]
      omega
  induction types generalizing s with
  | nil => exact Nat.le_add_right _ _
  | cons type types ih =>
    have hexplore : μ (s.explore I starts (Goal.ofType type)) ≤ μ s + maxLooks pool starts := by
      rw [explore_eq_visitTimes_maxLooks drawn, ← enters s]
      exact hlooks _ _ _
    rw [pursue, List.length_cons, Nat.succ_mul]
    split
    · rw [stops]
      omega
    · split
      · have hrest := ih s
        omega
      · have hrest := ih (s.explore I starts (Goal.ofType type))
        simp only
        split
        · omega
        · omega

theorem visits_extend (I : Interruptions) (t : Trail) (s : SearchState F L) :
    (s.extend I t).visits = s.visits := by
  simp only [extend]
  split
  · rfl
  · split
    · rfl
    · rfl

theorem visits_visit_le (I : Interruptions) (g : Goal) (s : SearchState F L) :
    (s.visit I g).visits ≤ s.visits + 1 := by
  rcases exists_visit_eq I g s with same | ⟨waiting, findings, status, changed | ⟨t, extended⟩⟩
  · rw [same]
    exact Nat.le_succ _
  · rw [changed]
  · rw [extended, visits_extend]

/-! ### The whole search -/

theorem isOver_search (I : Interruptions) (starts : List Link) (types : List JavaType)
    (s : SearchState F L) : (s.search I starts types).IsOver := by
  have hbegun : s.begun.waiting.toList = [] := Queue.toList_ofList _
  rw [search_eq]
  split
  · exact .inr hbegun
  · exact isOver_pursue types hbegun

theorem visits_search_le (drawn : F.DrawsFrom pool) (I : Interruptions) (starts : List Link)
    (types : List JavaType) (s : SearchState F L) :
    (s.search I starts types).visits ≤ types.length * maxLooks pool starts := by
  rw [search_eq]
  split
  · exact Nat.zero_le _
  · have hvisits := measure_pursue_le drawn I starts (fun u => u.visits) (fun _ => rfl) (fun _ => rfl)
      (visits_visit_le I) types s.begun
    have hzero : s.begun.visits = 0 := rfl
    rwa [hzero, Nat.zero_add] at hvisits

/-- A search that nothing interrupts, and that wants more chains than it can
take looks, goes through all there is. -/
theorem exhausted_search (drawn : F.DrawsFrom pool) (starts : List Link) (types : List JavaType)
    {s : SearchState F L} (quiet : s.cancelled = false)
    (wanted : s.findings.size + types.length * maxLooks pool starts < L.maxChains) :
    (s.search .none starts types).status = .exhausted := by
  rw [search_eq]
  split
  · rfl
  · have hcalm : s.begun.Calm := ⟨quiet, rfl, rfl⟩
    have hstatus : (s.begun.pursue .none starts types).status.isInterruption = false :=
      (hcalm.pursue types).status
    have hsize := measure_pursue_le drawn .none starts (fun u => u.findings.size) (fun _ => rfl)
      (fun _ => rfl) (fun g u => (look_visit .none g u).size_findings_le) types s.begun
    have hsame : s.begun.findings.size = s.findings.size := rfl
    have hlimit : (s.begun.pursue .none starts types).TellsLimit :=
      tellsLimit_pursue types rfl (.inr (by omega))
    cases hs : (s.begun.pursue .none starts types).status with
    | exhausted => rfl
    | limitReached =>
      have henough := hlimit.1 hs
      omega
    | timedOut => simp [hs, Status.isInterruption] at hstatus
    | cancelled => simp [hs, Status.isInterruption] at hstatus
    | aborted => simp [hs, Status.isInterruption] at hstatus

end SearchState

/-- **A search ends by itself.** Whatever the table holds, whatever the limits,
and whatever was found and looked up before: at every moment each trail that
waits has at most one link more than the declared members have keys; the search
for a goal is over after at most `maxLooks`, and that for several types after
at most as many for each. If nothing interrupts it and more chains are wanted
than there can be looks, nothing waits in the end. -/
theorem TypeTable.search_ends (t : TypeTable) (site : Site) (L : Limits) (I : Interruptions)
    (starts : List Link) (types : List JavaType) (s : SearchState (t.facts site) L) :
    (∀ u, SearchState.Moment I starts types s.begun u → ∀ trail ∈ u.waiting.toList,
      trail.length ≤ 1 + (Member.keys t.stored).card) ∧
    (∀ (u : SearchState (t.facts site) L) (g : Goal),
      u.explore I starts g = (u.enter starts).visitTimes I g (maxLooks t.stored starts) ∧
      (u.explore I starts g).IsOver) ∧
    ((s.search I starts types).IsOver ∧
      (s.search I starts types).visits ≤ types.length * maxLooks t.stored starts) ∧
    (s.cancelled = false →
      s.findings.size + types.length * maxLooks t.stored starts < L.maxChains →
      (s.search .none starts types).status = .exhausted ∧
        (s.search .none starts types).waiting.toList = []) := by
  have drawn : (t.facts site).DrawsFrom t.stored := t.drawsFrom_stored site
  refine ⟨?_, ?_, ?_, ?_⟩
  · intro u hu trail htrail
    have hmay : (t.facts site).MayWait L starts trail := hu.sound.waiting trail htrail
    rw [← Trail.length_links]
    exact hmay.1.length_le drawn
  · intro u g
    exact ⟨SearchState.explore_eq_visitTimes_maxLooks drawn I starts g u,
      SearchState.isOver_explore starts u⟩
  · exact ⟨s.isOver_search I starts types, s.visits_search_le drawn I starts types⟩
  · intro quiet wanted
    have hdone := SearchState.exhausted_search drawn starts types quiet wanted
    refine ⟨hdone, (s.isOver_search .none starts types).resolve_left ?_⟩
    rw [SearchState.isStopped_eq_false_iff.2 hdone]
    exact Bool.false_ne_true

namespace Ring

/-- Two types that stand above each other, each with a member of the other. -/
def table : TypeTable := .ofDecls [
  { name := "A", superclass := some "B", members := [.field "A" "b" (.named "B")] },
  { name := "B", superclass := some "A", members := [.field "B" "a" (.named "A")] }]

/-- As many chains as can be asked for, and as long ones. -/
def limits : Limits :=
  { Circle.limits with maxChains := UInt64.size - 1, maxLength := UInt64.size - 1, excluded := [] }

/-- A search that has not begun. -/
def fresh : SearchState (table.facts (.named "A")) limits := {}

/-- Of the seven looks that there can be five are taken. -/
theorem search_ends_ring :
    (Member.keys table.stored).card = 2 ∧ maxLooks table.stored [Circle.start "x"] = 7 ∧
    (fresh.search .none [Circle.start "x"] [.named "B"]).status = .exhausted ∧
    (fresh.search .none [Circle.start "x"] [.named "B"]).waiting.toList = [] ∧
    (fresh.search .none [Circle.start "x"] [.named "B"]).visits = 5 ∧
    (fresh.search .none [Circle.start "x"] [.named "B"]).outcome.chains.map Chain.printed =
      ["x", "x.b", "x.a", "x.b.a", "x.a.b"] := by
  have hkeys : (Member.keys table.stored).card = 2 := by decide
  have hlooks : maxLooks table.stored [Circle.start "x"] = 7 := by decide
  have hnone : fresh.findings.size = 0 := rfl
  obtain ⟨-, -, -, hends⟩ := table.search_ends (.named "A") limits .none [Circle.start "x"]
    [.named "B"] fresh
  rw [hlooks, hnone] at hends
  obtain ⟨hstatus, hwaiting⟩ := hends rfl (by decide)
  exact ⟨hkeys, hlooks, hstatus, hwaiting, by decide, by decide⟩

end Ring

end CallChain
