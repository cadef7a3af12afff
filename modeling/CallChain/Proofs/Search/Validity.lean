/-
# Every chain found is valid

A chain is valid when it starts where it may, each link is a member of the
value before it, no link is left out, used twice or without members, and the
last value fits a type that was asked for. The queue holds rows of such links
only, whatever the memo has kept and whichever goal is searched for, so that
each chain is valid from the moment when it is found, however the search ends.

Key definitions: `Facts.Offers`, `Facts.Admits`, `Chain.Valid`.
Key theorem: `SearchState.found_valid`.
-/
import CallChain.Proofs.Search.Course
import Mathlib.Data.List.Chain

namespace CallChain

variable {F : Facts} {L : Limits}

/-! ### Rows of links -/

/-- `F.Offers type l` says that `l` is the use of a visible member of values of
a type, not reached through `this`, with the type that the member is known to
have. -/
def Facts.Offers (F : Facts) (type : JavaType) (l : Link) : Prop :=
  ∃ ms, F.members .value type = .ok ms ∧
    ∃ m ∈ ms, ∃ memberType, F.typeOf m = .ok memberType ∧ Link.make m memberType false = .ok l

/-- `F.Follows k l` says that `l` uses a member of the value of `k` without its
dimensions. -/
def Facts.Follows (F : Facts) (k l : Link) : Prop := F.Offers k.type.elementType l

/-- No start of a key that is left out is one of the key's. -/
def Limits.Allows (L : Limits) (key : String) : Prop :=
  ∀ start ∈ L.excluded, start ≠ "" → ¬ start.toList <+: key.toList

/-- The rows of links that a search from the given starts may build. -/
structure Facts.Admits (F : Facts) (L : Limits) (starts : List Link) (ls : List Link) : Prop where
  head : ∃ l ∈ starts, ls.head? = some l
  follows : ls.IsChain F.Follows
  noLeaf : ∀ l ∈ ls, l.isLeaf = false
  allowed : ∀ l ∈ ls, L.Allows l.member.key
  distinct : (ls.map fun l => l.member.key).Nodup

/-- What each link of a row has to be beside following the one before it, all
but the first have to be. -/
theorem isChain_and_iff {R : Link → Link → Prop} {P : Link → Prop} {ls : List Link} :
    ls.IsChain (fun k l => R k l ∧ P l) ↔ ls.IsChain R ∧ ∀ l ∈ ls.tail, P l := by
  induction ls with
  | nil => simp
  | cons k ls ih =>
    cases ls with
    | nil => simp
    | cons l ls =>
      rw [List.isChain_cons_cons, List.isChain_cons_cons, ih, List.tail_cons, List.tail_cons,
        List.forall_mem_cons]
      constructor
      · rintro ⟨⟨hfollows, hl⟩, hchain, hrest⟩
        exact ⟨⟨hfollows, hchain⟩, hl, hrest⟩
      · rintro ⟨⟨hfollows, hchain⟩, hl, hrest⟩
        exact ⟨⟨hfollows, hl⟩, hchain, hrest⟩

theorem Limits.excludes_eq_false_iff {key : String} : L.excludes key = false ↔ L.Allows key := by
  simp [excludes, Allows, Text.startsWith, List.any_eq_false]

theorem Link.member_of_make {m : Member} {type : JavaType} {ofThis : Bool} {l : Link}
    (h : Link.make m type ofThis = .ok l) : l.member = m := by
  obtain ⟨kind, -, -, rfl⟩ := Link.make_eq_ok_iff.1 h
  rfl

theorem Facts.link_eq_ok_iff {ofThis : Bool} {m : Member} {l : Link} :
    F.link ofThis m = .ok l ↔ ∃ type, F.typeOf m = .ok type ∧ Link.make m type ofThis = .ok l := by
  unfold link
  cases F.typeOf m with
  | ok type => simp [bind, Except.bind]
  | error e => simp [bind, Except.bind]

theorem Facts.follower?_eq_some_iff {m : Member} {l : Link} :
    F.follower? L m = some l ↔
      F.link false m = .ok l ∧ L.excludes m.key = false ∧ l.isLeaf = false := by
  unfold follower?
  cases hx : L.excludes m.key with
  | true => simp
  | false =>
    cases hl : F.link false m with
    | error e => simp
    | ok k =>
      cases hk : k.isLeaf with
      | true =>
        simp only [Bool.false_eq_true, ↓reduceIte, hk, reduceCtorEq, Except.ok.injEq, true_and, false_iff]
        rintro ⟨rfl, h⟩
        simp [hk] at h
      | false =>
        simp only [Bool.false_eq_true, ↓reduceIte, hk, Option.some.injEq, Except.ok.injEq, true_and]
        constructor
        · rintro rfl
          exact ⟨rfl, hk⟩
        · exact And.left

/-- What may follow a value: its visible members that are not left out, that
have a type, and whose value has members or dimensions. -/
theorem Facts.mem_expansion_iff {type : JavaType} {l : Link} :
    l ∈ F.expansion L type ↔ F.Offers type l ∧ L.Allows l.member.key ∧ l.isLeaf = false := by
  unfold expansion Offers
  cases F.members .value type with
  | error e => simp
  | ok ms =>
    simp only [List.mem_filterMap, follower?_eq_some_iff, link_eq_ok_iff, Except.ok.injEq,
      exists_eq_left', Limits.excludes_eq_false_iff]
    constructor
    · rintro ⟨m, hm, ⟨type, htype, hl⟩, hx, hleaf⟩
      exact ⟨⟨m, hm, type, htype, hl⟩, by rwa [Link.member_of_make hl], hleaf⟩
    · rintro ⟨⟨m, hm, type, htype, hl⟩, hx, hleaf⟩
      exact ⟨m, hm, ⟨type, htype, hl⟩, by rwa [Link.member_of_make hl] at hx, hleaf⟩

theorem Trail.getLast?_links (t : Trail) : t.links.getLast? = some t.tail := by simp [links]

theorem Facts.admits_opening {starts : List Link} {l : Link} (h : l ∈ L.openings starts) :
    F.Admits L starts (Trail.links { tail := l }) := by
  simp only [Limits.openings, List.mem_filter, Bool.and_eq_true, Bool.not_eq_true', Link.key_eq,
    Limits.excludes_eq_false_iff] at h
  obtain ⟨hl, hleaf, hkey⟩ := h
  exact {
    head := ⟨l, hl, rfl⟩
    follows := by simp [Trail.links]
    noLeaf := by simp [Trail.links, hleaf]
    allowed := by simpa [Trail.links] using hkey
    distinct := by simp [Trail.links] }

/-- An admitted trail stays so when it is extended. -/
theorem Facts.Admits.extensions {starts : List Link} {t u : Trail} (h : F.Admits L starts t.links)
    (hu : u ∈ t.extensions (F.expansion L t.tail.type.elementType)) :
    F.Admits L starts u.links := by
  obtain ⟨l, hl, rfl⟩ := List.mem_map.1 hu
  rw [List.mem_filter, mem_expansion_iff] at hl
  obtain ⟨⟨hfollows, hkey, hleaf⟩, hfree⟩ := hl
  have hnew : l.key ∉ t.links.map (·.key) := by
    rw [← Trail.uses_iff]
    simpa using hfree
  rw [Trail.links_extend]
  constructor
  case head =>
    obtain ⟨k, hk, he⟩ := h.head
    exact ⟨k, hk, by rw [List.head?_append, he]; rfl⟩
  case follows =>
    refine List.isChain_append.2 ⟨h.follows, .singleton l, ?_⟩
    rintro x hx y hy
    rw [Trail.getLast?_links, Option.mem_some_iff] at hx
    rw [List.head?_cons, Option.mem_some_iff] at hy
    exact hx ▸ hy ▸ hfollows
  case noLeaf =>
    intro k hk
    rcases List.mem_append.1 hk with hk | hk
    · exact h.noLeaf k hk
    · rwa [List.mem_singleton.1 hk]
  case allowed =>
    intro k hk
    rcases List.mem_append.1 hk with hk | hk
    · exact h.allowed k hk
    · rwa [List.mem_singleton.1 hk]
  case distinct =>
    have hnew' : l.member.key ∉ t.links.map fun k => k.member.key := by
      simpa [Link.key_eq] using hnew
    rw [List.map_append, List.map_singleton, List.nodup_append]
    refine ⟨h.distinct, by simp, ?_⟩
    rintro a ha b hb rfl
    exact hnew' (List.mem_singleton.1 hb ▸ ha)

theorem Facts.Offers.isMade {type : JavaType} {l : Link} (h : F.Offers type l) : l.IsMade := by
  obtain ⟨ms, -, m, -, memberType, -, hmake⟩ := h
  exact ⟨m, memberType, false, hmake⟩

theorem Facts.Admits.forall_links {P : Link → Prop} {starts ls : List Link}
    (h : F.Admits L starts ls) (first : ∀ l ∈ starts, P l) (later : ∀ type l, F.Offers type l → P l) :
    ∀ l ∈ ls, P l := by
  obtain ⟨k, hk, hhead⟩ := h.head
  refine List.IsChain.induction P ls h.follows (fun a b follows _ => later _ b follows) (fun hne => ?_)
  have hk' : ls.head hne = k := by
    rw [List.head?_eq_some_head hne] at hhead
    exact Option.some.inj hhead
  rw [hk']
  exact first k hk

/-! ### Chains -/

/-- A chain that a search may find: its links are admitted and neither too few
nor too many, and one of the types asked for, and not left out, has the
dimensions kept, and is fit for the last value, whose element is a reference. -/
structure Chain.Valid (F : Facts) (L : Limits) (starts : List Link) (types : List JavaType)
    (c : Chain) : Prop where
  admitted : F.Admits L starts c.links
  le_length : L.minLength ≤ c.length
  length_le : c.length ≤ max 1 L.maxLength
  ends : ∃ type ∈ types, L.Allows type.elementType.signature ∧ c.keptDims = type.dimensions ∧
    ∃ l, c.links.getLast? = some l ∧ c.keptDims ≤ l.dims ∧
      l.type.elementType.isPrimitive = false ∧ l.type.elementType.isVoid = false ∧
      F.assignable l.type.elementType type.elementType = true

/-- A trail that waits is admitted and not too long. -/
def Facts.MayWait (F : Facts) (L : Limits) (starts : List Link) (t : Trail) : Prop :=
  F.Admits L starts t.links ∧ t.length ≤ max 1 L.maxLength

theorem Facts.MayWait.branches {starts : List Link} {t u : Trail} {rest : Nat}
    (h : F.MayWait L starts t) (hu : u ∈ F.branches L rest t) : F.MayWait L starts u := by
  obtain ⟨hlen, hlt⟩ := length_of_mem_branches hu
  refine ⟨?_, by omega⟩
  unfold Facts.branches at hu
  split at hu
  · cases hu
  · exact h.1.extensions hu

theorem Facts.MayWait.valid {starts : List Link} {types : List JavaType} {type : JavaType}
    {t : Trail} (h : F.MayWait L starts t) (mem : type ∈ types)
    (wanted : L.excludes type.elementType.signature = false)
    (accepted : F.accepts L (Goal.ofType type) t = true) :
    (t.chain (Goal.ofType type).dims).Valid F L starts types := by
  simp only [accepts, reaches, Bool.and_eq_true, decide_eq_true_eq, Bool.not_eq_true',
    Bool.or_eq_false_iff] at accepted
  obtain ⟨hmin, ⟨hdims, hprimitive, hvoid⟩, hassign⟩ := accepted
  have hlen : (t.chain (Goal.ofType type).dims).length = t.length := t.length_links
  exact {
    admitted := h.1
    le_length := hlen ▸ hmin
    length_le := hlen ▸ h.2
    ends := ⟨type, mem, Limits.excludes_eq_false_iff.1 wanted, rfl, t.tail, t.getLast?_links, hdims,
      hprimitive, hvoid, hassign⟩ }

namespace SearchState

variable {I : Interruptions} {starts : List Link} {types : List JavaType}

/-- What every look keeps: the trails that wait may do so, and what was found
since `s` is valid. -/
structure Sound (starts : List Link) (types : List JavaType) (s u : SearchState F L) : Prop where
  waiting : ∀ t ∈ u.waiting.toList, F.MayWait L starts t
  findings : ∃ new, u.findings.toList = s.findings.toList ++ new ∧
    ∀ c ∈ new, c.Valid F L starts types

theorem mayWait_enter (starts : List Link) (s : SearchState F L) :
    ∀ t ∈ (s.enter starts).waiting.toList, F.MayWait L starts t := by
  intro t ht
  rw [waiting_enter] at ht
  obtain ⟨l, hl, rfl⟩ := List.mem_map.1 ht
  exact ⟨Facts.admits_opening hl, Nat.le_max_left _ _⟩

theorem Sound.enter {s u : SearchState F L} (h : Sound starts types s u) :
    Sound starts types s (u.enter starts) :=
  ⟨mayWait_enter starts u, h.findings⟩

/-- Judging a trail that may wait finds valid chains only. -/
theorem Sound.judge {s u : SearchState F L} (h : Sound starts types s u) {type : JavaType}
    (mem : type ∈ types) (wanted : L.excludes type.elementType.signature = false) {t : Trail}
    (ht : F.MayWait L starts t) :
    ∃ new, (F.judge L (Goal.ofType type) t u.findings).toList = s.findings.toList ++ new ∧
      ∀ c ∈ new, c.Valid F L starts types := by
  unfold Facts.judge
  split
  · rename_i accepted
    obtain ⟨new, hnew, hvalid⟩ := h.findings
    cases hn : u.findings.isNew (t.chain (Goal.ofType type).dims) with
    | false =>
      rw [Findings.push_of_not_isNew hn]
      exact h.findings
    | true =>
      refine ⟨new ++ [t.chain (Goal.ofType type).dims], ?_, ?_⟩
      · rw [Findings.toList_push_of_isNew hn, hnew, List.append_assoc]
      · intro c hc
        rcases List.mem_append.1 hc with hc | hc
        · exact hvalid c hc
        · rw [List.mem_singleton.1 hc]
          exact ht.valid mem wanted accepted
  · exact h.findings

/-- After a look only trails wait that may do so. -/
theorem Look.mayWait {g : Goal} {s s' : SearchState F L} (h : Look g s s')
    (waits : ∀ t ∈ s.waiting.toList, F.MayWait L starts t) :
    ∀ t ∈ s'.waiting.toList, F.MayWait L starts t := by
  cases h with
  | rests ended same => rwa [same]
  | halts t rest running next status waiting =>
    rw [next, List.forall_mem_cons] at waits
    exact waiting ▸ waits.2
  | fills t rest running next status waiting =>
    rw [next, List.forall_mem_cons] at waits
    exact waiting ▸ waits.2
  | goesOn t rest running next status waiting =>
    rw [next, List.forall_mem_cons] at waits
    rw [waiting, List.forall_mem_append]
    exact ⟨waits.2, fun u hu => waits.1.branches hu⟩

theorem Sound.visit {s u : SearchState F L} (h : Sound starts types s u) {type : JavaType}
    (mem : type ∈ types) (wanted : L.excludes type.elementType.signature = false) :
    Sound starts types s (u.visit I (Goal.ofType type)) := by
  have look := look_visit I (Goal.ofType type) u
  refine ⟨look.mayWait h.waiting, ?_⟩
  have hall := h.waiting
  cases look with
  | rests ended same =>
    rw [same]
    exact h.findings
  | halts t rest running next status waiting findings =>
    rw [next] at hall
    rcases findings with hf | hf
    · exact hf ▸ h.findings
    · exact hf ▸ h.judge mem wanted (hall t List.mem_cons_self)
  | fills t rest running next status waiting accepted findings =>
    rw [next] at hall
    exact findings ▸ h.judge mem wanted (hall t List.mem_cons_self)
  | goesOn t rest running next status waiting findings =>
    rw [next] at hall
    exact findings ▸ h.judge mem wanted (hall t List.mem_cons_self)

theorem sound_begun (s : SearchState F L) : Sound starts types s s.begun where
  waiting := by
    intro t ht
    rw [begun, Queue.toList_ofList] at ht
    cases ht
  findings := ⟨[], (List.append_nil _).symm, fun _ hc => absurd hc List.not_mem_nil⟩

theorem Moment.sound {s u : SearchState F L} (h : Moment I starts types s.begun u) :
    Sound starts types s u :=
  h.preserves (fun _ hu => hu.enter) (fun _ mem wanted _ hu => hu.visit mem wanted) (sound_begun s)

theorem findings_search_valid (I : Interruptions) (starts : List Link) (types : List JavaType)
    (s : SearchState F L) :
    ∃ new, (s.search I starts types).findings.toList = s.findings.toList ++ new ∧
      ∀ c ∈ new, c.Valid F L starts types := by
  rw [search_eq]
  split
  · exact (sound_begun s).findings
  · obtain ⟨u, hu, he⟩ := exists_moment_findings_eq types s.begun
    exact he ▸ hu.sound.findings

/-- **Every chain found is valid.** At every moment of a search, and in the
end, whatever interrupts it, all that it has found is valid and comes after
what was found before it. -/
theorem found_valid (hlen : 1 ≤ L.maxLength) (I : Interruptions) (starts : List Link)
    (types : List JavaType) (s u : SearchState F L)
    (h : Moment I starts types s.begun u ∨ u = s.search I starts types) :
    ∃ new, u.findings.toList = s.findings.toList ++ new ∧
      ∀ c ∈ new, c.Valid F L starts types ∧ c.length ≤ L.maxLength := by
  have hfound : ∃ new, u.findings.toList = s.findings.toList ++ new ∧
      ∀ c ∈ new, c.Valid F L starts types := by
    rcases h with h | rfl
    · exact h.sound.findings
    · exact findings_search_valid I starts types s
  obtain ⟨new, hnew, hvalid⟩ := hfound
  have hmax : max 1 L.maxLength = L.maxLength := by omega
  exact ⟨new, hnew, fun c hc => ⟨hvalid c hc, hmax ▸ (hvalid c hc).length_le⟩⟩

end SearchState

theorem Facts.valid_of_mem_search {I : Interruptions} {starts : List Link} {types : List JavaType}
    {c : Chain} (h : c ∈ (F.search L I starts types).chains) : c.Valid F L starts types := by
  obtain ⟨new, hnew, hvalid⟩ :=
    SearchState.findings_search_valid I starts types ({} : SearchState F L)
  rw [F.chains_search, hnew] at h
  exact hvalid c h

/-- A search that is called off at its fourth look has found one chain. -/
theorem Circle.found_valid_circle :
    ∃ new, (({} : SearchState facts limits).search { cancelledAt := fun n => n == 3 }
          [start "x", start "z", start "y"] [.named "B", .named "A"]).findings.toList = [] ++ new ∧
      (∀ c ∈ new, c.Valid facts limits [start "x", start "z", start "y"] [.named "B", .named "A"] ∧
        c.length ≤ limits.maxLength) ∧
      new.map Chain.printed = ["x.bs"] := by
  obtain ⟨new, hnew, hvalid⟩ := SearchState.found_valid (by decide) { cancelledAt := fun n => n == 3 }
    [start "x", start "z", start "y"] [.named "B", .named "A"]
    ({} : SearchState facts limits) _ (.inr rfl)
  refine ⟨new, hnew, hvalid, ?_⟩
  rw [← List.nil_append new]
  exact hnew ▸ by decide

end CallChain
