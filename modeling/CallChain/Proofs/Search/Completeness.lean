/-
# What an exhausted search has found

A trail that waits in the queue comes to its head, if nothing stops the search,
and then leaves its extensions waiting, unless too many others wait already. So
link by link every row of links that a search may build comes to the head, or
one that it goes on from was not extended for want of room. An exhausted search
has found all valid chains up to their texts but for those that were cut off in
this way, and some may be: `Crowd.exhausted_misses`.

Key definitions: `SearchState.Serves`, `SearchState.Prunes`.
Key theorems: `SearchState.serves_or_prunes`, `SearchState.exhausted_complete`.
-/
import CallChain.Proofs.Search.Enumeration
import CallChain.Proofs.Search.Truncation
import CallChain.Proofs.Search.Validity

namespace CallChain

variable {F : Facts} {L : Limits}

/-! ### Rows of links, link by link -/

theorem Findings.printed_mem_push (f : Findings) (c : Chain) :
    c.printed ∈ (f.push c).toList.map Chain.printed := by
  rw [map_printed_toList, List.mem_reverse]
  exact mem_printed_push_iff.2 (.inr rfl)

theorem Trail.exists_links_eq {ls : List Link} (h : ls ≠ []) : ∃ t : Trail, t.links = ls := by
  refine ⟨{ tail := ls.getLast h, before := ls.dropLast.reverse }, ?_⟩
  rw [links, List.reverse_reverse]
  exact List.dropLast_append_getLast h

theorem Facts.Admits.mem_openings {starts : List Link} {l : Link}
    (h : F.Admits L starts (Trail.links { tail := l })) : l ∈ L.openings starts := by
  obtain ⟨k, hk, he⟩ := h.head
  have hl : l ∈ Trail.links { tail := l } := by simp [Trail.links]
  obtain rfl : l = k := by simpa [Trail.links] using he
  have hkey : L.excludes l.key = false := by
    rw [Link.key_eq, Limits.excludes_eq_false_iff]
    exact h.allowed l hl
  have hleaf : l.isLeaf = false := h.noLeaf l hl
  exact List.mem_filter.2 ⟨hk, by simp [hleaf, hkey]⟩

theorem Facts.Admits.of_extend {starts : List Link} {t : Trail} {l : Link}
    (h : F.Admits L starts (t.extend l).links) : F.Admits L starts t.links := by
  have hlinks : (t.extend l).links = t.links ++ [l] := t.links_extend l
  have hmem : ∀ k ∈ t.links, k ∈ (t.extend l).links := by
    intro k hk
    rw [hlinks]
    exact List.mem_append_left _ hk
  constructor
  case head =>
    obtain ⟨k, hk, he⟩ := h.head
    refine ⟨k, hk, ?_⟩
    rwa [hlinks, List.head?_append_of_ne_nil _ (by simp [Trail.links])] at he
  case follows =>
    have hchain := h.follows
    rw [hlinks] at hchain
    exact (List.isChain_append.1 hchain).1
  case noLeaf => exact fun k hk => h.noLeaf k (hmem k hk)
  case allowed => exact fun k hk => h.allowed k (hmem k hk)
  case distinct =>
    have hnodup := h.distinct
    rw [hlinks, List.map_append] at hnodup
    exact (List.nodup_append.1 hnodup).1

/-- An admitted trail is among the extensions of the one without its last
link. -/
theorem Facts.Admits.mem_extensions {starts : List Link} {t : Trail} {l : Link}
    (h : F.Admits L starts (t.extend l).links) :
    t.extend l ∈ t.extensions (F.expansion L t.tail.type.elementType) := by
  have hlinks : (t.extend l).links = t.links ++ [l] := t.links_extend l
  have hl : l ∈ (t.extend l).links := by simp [hlinks]
  have hfollows : F.Offers t.tail.type.elementType l := by
    have hchain := h.follows
    rw [hlinks] at hchain
    exact (List.isChain_append.1 hchain).2.2 t.tail t.getLast?_links l rfl
  have hfree : t.uses l = false := by
    rw [Bool.eq_false_iff, ne_eq, Trail.uses_iff]
    have hnodup := h.distinct
    rw [hlinks, List.map_append, List.nodup_append] at hnodup
    intro hkey
    have hkey' : l.member.key ∈ t.links.map fun k => k.member.key := by
      simpa [Link.key_eq] using hkey
    exact hnodup.2.2 _ hkey' _ (List.mem_singleton.2 rfl) rfl
  have hmem : l ∈ F.expansion L t.tail.type.elementType :=
    mem_expansion_iff.2 ⟨hfollows, h.allowed l hl, h.noLeaf l hl⟩
  exact List.mem_map.2 ⟨l, List.mem_filter.2 ⟨hmem, by simp [hfree]⟩, rfl⟩

namespace SearchState

variable {I : Interruptions} {g : Goal} {starts : List Link}

/-! ### Whatever waits has its turn -/

/-- `t` comes to the head of the queue in the looks that follow. -/
def Serves (I : Interruptions) (g : Goal) (s : SearchState F L) (t : Trail) : Prop :=
  ∃ n rest, (s.visitTimes I g n).waiting.toList = t :: rest

/-- The next trail leaves the queue while so many others wait that it is not
extended, though it might get longer and `ls` goes on from it. -/
def Prunes (s : SearchState F L) (ls : List Link) : Prop :=
  s.isStopped = false ∧ ∃ t w, s.waiting.pop? = some (t, w) ∧ t.length < L.maxLength ∧
    maxWaiting ≤ w.size ∧ t.links <+: ls ∧ t.length < ls.length

theorem Prunes.of_prefix {s : SearchState F L} {ls ks : List Link} (h : s.Prunes ls)
    (hle : ls <+: ks) : s.Prunes ks := by
  obtain ⟨running, t, w, hp, hshort, hfull, hpre, hlt⟩ := h
  exact ⟨running, t, w, hp, hshort, hfull, hpre.trans hle, hlt.trans_le hle.length_le⟩

theorem HasRoom.not_prunes {s : SearchState F L} (h : s.HasRoom) (ls : List Link) :
    ¬ s.Prunes ls := by
  rintro ⟨running, t, w, hp, hshort, hfull, -⟩
  have hroom : w.size < maxWaiting := h running t w hp hshort
  omega

/-- A look after which the search goes on judges the next trail, and what may
come of it joins the queue. -/
theorem visit_of_goesOn {s : SearchState F L} (goesOn : (s.visit I g).isStopped = false) {t : Trail}
    {rest : List Trail} (next : s.waiting.toList = t :: rest) :
    (s.visit I g).waiting.toList = rest ++ F.branches L rest.length t ∧
      (s.visit I g).findings = F.judge L g t s.findings := by
  cases look_visit I g s with
  | rests ended same =>
    rcases ended with h | h
    · simp [same, h] at goesOn
    · simp [h] at next
  | halts t' rest' _ _ status => simp [isStopped_of_isInterruption status] at goesOn
  | fills t' rest' _ _ status => simp [isStopped, status] at goesOn
  | goesOn t' rest' _ next' _ waiting findings =>
    obtain ⟨rfl, rfl⟩ : t = t' ∧ rest = rest' := by simpa [next] using next'
    exact ⟨waiting, findings⟩

/-- A search for one goal that is not stopped in the end has not been stopped
at any look. -/
theorem isStopped_visitTimes_of_explore {s : SearchState F L}
    (done : (s.explore I starts g).isStopped = false) (n : Nat) :
    ((s.enter starts).visitTimes I g n).isStopped = false := by
  obtain ⟨m, hm⟩ := explore_eq_visitTimes I starts g s
  have ended : ((s.enter starts).visitTimes I g m).IsOver := hm ▸ isOver_explore starts s
  rw [hm] at done
  rcases Nat.le_total n m with hnm | hmn
  · obtain ⟨k, rfl⟩ := Nat.exists_eq_add_of_le hnm
    rw [visitTimes_add] at done
    by_contra stopped
    rw [Bool.not_eq_false] at stopped
    rw [visitTimes_of_isOver (.inl stopped)] at done
    rw [done] at stopped
    cases stopped
  · rwa [visitTimes_of_le ended hmn]

/-- A trail behind others in the queue is served after them. -/
theorem serves_of_behind {t : Trail} (ahead after : List Trail) {s : SearchState F L}
    (goesOn : ∀ n, (s.visitTimes I g n).isStopped = false)
    (waiting : s.waiting.toList = ahead ++ t :: after) : s.Serves I g t := by
  induction ahead generalizing s after with
  | nil => exact ⟨0, after, waiting⟩
  | cons u ahead ih =>
    rw [List.cons_append] at waiting
    obtain ⟨hwait, -⟩ := visit_of_goesOn (goesOn 1) waiting
    rw [List.append_assoc, List.cons_append] at hwait
    obtain ⟨n, rest, hn⟩ := ih _ (fun n => goesOn (n + 1)) hwait
    exact ⟨n + 1, rest, hn⟩

theorem serves_of_mem {s : SearchState F L} (goesOn : ∀ n, (s.visitTimes I g n).isStopped = false)
    (n : Nat) {t : Trail} (h : t ∈ (s.visitTimes I g n).waiting.toList) : s.Serves I g t := by
  obtain ⟨ahead, after, hwait⟩ := List.append_of_mem h
  have goesOn' : ∀ k, ((s.visitTimes I g n).visitTimes I g k).isStopped = false := by
    intro k
    rw [← visitTimes_add]
    exact goesOn (n + k)
  obtain ⟨k, rest, hk⟩ := serves_of_behind ahead after goesOn' hwait
  exact ⟨n + k, rest, by rw [visitTimes_add, hk]⟩

/-- A search for one goal that is not stopped serves every trail that it may
build, unless it prunes one that the trail goes on from. -/
theorem serves_or_prunes {s : SearchState F L}
    (goesOn : ∀ n, ((s.enter starts).visitTimes I g n).isStopped = false) (l : Link)
    (before : List Link) (admitted : F.Admits L starts (Trail.links { tail := l, before }))
    (short : before.length < max 1 L.maxLength) :
    (s.enter starts).Serves I g { tail := l, before } ∨
      ∃ n, ((s.enter starts).visitTimes I g n).Prunes (Trail.links { tail := l, before }) := by
  -- link by link from the first, on the trail without its last link
  induction before generalizing l with
  | nil =>
    have hopen : l ∈ L.openings starts := admitted.mem_openings
    refine .inl (serves_of_mem goesOn 0 ?_)
    rw [visitTimes, waiting_enter]
    exact List.mem_map.2 ⟨l, hopen, rfl⟩
  | cons k before ih =>
    let t : Trail := { tail := k, before }
    have hextend : ({ tail := l, before := k :: before } : Trail) = t.extend l := rfl
    rw [hextend] at admitted ⊢
    rw [List.length_cons] at short
    have hlength : t.length < L.maxLength := by
      simp only [t, Trail.length]
      omega
    have hpre : t.links <+: (t.extend l).links := by
      rw [t.links_extend]
      exact List.prefix_append _ _
    rcases ih k admitted.of_extend (by omega) with ⟨n, rest, head⟩ | ⟨n, pruned⟩
    · by_cases hfull : maxWaiting ≤ rest.length
      · right
        cases hp : ((s.enter starts).visitTimes I g n).waiting.pop? with
        | none =>
          rw [Queue.pop?_eq_none_iff.1 hp] at head
          cases head
        | some p =>
          obtain ⟨u, w⟩ := p
          have hw := Queue.toList_of_pop? hp
          rw [head, List.cons.injEq] at hw
          obtain ⟨rfl, rfl⟩ := hw
          rw [Queue.length_toList] at hfull
          refine ⟨n, goesOn n, t, w, hp, hlength, hfull, hpre, ?_⟩
          rw [Trail.length_links, Trail.length_extend]
          omega
      · left
        have hgoes := goesOn (n + 1)
        rw [visitTimes_succ] at hgoes
        obtain ⟨hwait, -⟩ := visit_of_goesOn hgoes head
        refine serves_of_mem goesOn (n + 1) ?_
        rw [visitTimes_succ, hwait]
        refine List.mem_append_right _ ?_
        have hextends : ¬ (decide (L.maxLength ≤ t.length) || decide (maxWaiting ≤ rest.length)) = true := by
          rw [Bool.or_eq_true, decide_eq_true_eq, decide_eq_true_eq]
          omega
        rw [Facts.branches, if_neg hextends]
        exact admitted.mem_extensions
    · exact .inr ⟨n, pruned.of_prefix hpre⟩

/-! ### Whatever is served is found -/

theorem printed_mem_of_serves {s : SearchState F L}
    (goesOn : ∀ n, ((s.enter starts).visitTimes I g n).isStopped = false) {t : Trail}
    (served : (s.enter starts).Serves I g t) (accepted : F.accepts L g t = true) :
    (t.chain g.dims).printed ∈ (s.explore I starts g).findings.toList.map Chain.printed := by
  obtain ⟨n, rest, head⟩ := served
  have hgoes := goesOn (n + 1)
  rw [visitTimes_succ] at hgoes
  obtain ⟨-, hfound⟩ := visit_of_goesOn hgoes head
  have hmem : (t.chain g.dims).printed ∈
      ((s.enter starts).visitTimes I g (n + 1)).findings.toList.map Chain.printed := by
    rw [visitTimes_succ, hfound, Facts.judge, if_pos accepted]
    exact Findings.printed_mem_push _ _
  exact ((findings_prefix_explore_of_moment (n + 1) s).map Chain.printed).subset hmem

/-- A search for several types that is not stopped finds the text of every
chain for one of them, unless it prunes what the chain goes on from. -/
theorem pursue_printed_or_prunes (types : List JavaType) {s : SearchState F L}
    (done : (s.pursue I starts types).status = .exhausted) {type : JavaType} (mem : type ∈ types)
    (wanted : L.excludes type.elementType.signature = false) {t : Trail}
    (admitted : F.Admits L starts t.links) (short : t.length ≤ max 1 L.maxLength)
    (accepted : F.accepts L (Goal.ofType type) t = true) :
    (t.chain type.dimensions).printed ∈
        (s.pursue I starts types).findings.toList.map Chain.printed ∨
      ∃ u, Moment I starts types s u ∧ u.Prunes t.links := by
  induction types generalizing s with
  | nil => cases mem
  | cons first types ih =>
    rw [pursue] at done ⊢
    by_cases hfull : L.maxChains ≤ s.findings.size
    · rw [if_pos hfull] at done
      cases done
    have room : s.findings.size < L.maxChains := Nat.lt_of_not_le hfull
    rw [if_neg hfull] at done ⊢
    cases hfirst : L.excludes first.elementType.signature with
    | true =>
      rw [hfirst, if_pos rfl] at done
      rw [if_pos rfl]
      rcases List.mem_cons.1 mem with rfl | hmem
      · rw [wanted] at hfirst
        cases hfirst
      · rcases ih done hmem with found | ⟨u, hu, pruned⟩
        · exact .inl found
        · exact .inr ⟨u, .skip hfirst hu, pruned⟩
    | false =>
      rw [hfirst, if_neg (by simp)] at done
      rw [if_neg (by simp)]
      simp only at done ⊢
      have goesOn : (s.explore I starts (Goal.ofType first)).isStopped = false := by
        by_contra stopped
        rw [Bool.not_eq_false] at stopped
        rw [if_pos stopped] at done
        simp [isStopped, done] at stopped
      rw [goesOn, if_neg (by simp)] at done
      rw [goesOn, if_neg (by simp)]
      rcases List.mem_cons.1 mem with rfl | hmem
      · have running := isStopped_visitTimes_of_explore goesOn
        rcases serves_or_prunes running t.tail t.before admitted short with served | ⟨n, pruned⟩
        · have hfound := printed_mem_of_serves running served accepted
          exact .inl (((findings_prefix_pursue types _).map Chain.printed).subset hfound)
        · exact .inr ⟨_, .look n room wanted, pruned⟩
      · rcases ih done hmem with found | ⟨u, hu, pruned⟩
        · exact .inl found
        · exact .inr ⟨u, .next room hfirst goesOn hu, pruned⟩

/-- A valid chain that an exhausted search has not found the text of was
pruned. -/
theorem search_printed_or_prunes (hmax : 1 ≤ L.maxChains) {types : List JavaType}
    {s : SearchState F L} (done : (s.search I starts types).status = .exhausted) {c : Chain}
    (valid : c.Valid F L starts types) :
    c.printed ∈ (s.search I starts types).findings.toList.map Chain.printed ∨
      ∃ u, Moment I starts types s.begun u ∧ u.Prunes c.links := by
  obtain ⟨type, hmem, hwanted, hdims, l, hlast, hle, hprimitive, hvoid, hassign⟩ := valid.ends
  have hne : c.links ≠ [] := by
    rintro h
    rw [h] at hlast
    cases hlast
  obtain ⟨t, ht⟩ := Trail.exists_links_eq hne
  have hchain : t.chain type.dimensions = c := by rw [Trail.chain, ht, ← hdims]
  have hlength : c.length = t.length := by rw [← t.length_links, ht]; rfl
  obtain rfl : t.tail = l := by
    rw [← ht, t.getLast?_links] at hlast
    exact Option.some.inj hlast
  have accepted : F.accepts L (Goal.ofType type) t = true := by
    rw [hdims] at hle
    have hmin := hlength ▸ valid.le_length
    simp [Facts.accepts, Facts.reaches, Goal.ofType, hmin, hle, hprimitive, hvoid, hassign]
  have hidle : ¬ (decide (L.maxChains = 0) || starts.isEmpty) = true := by
    obtain ⟨k, hk, -⟩ := valid.admitted.head
    have hstarts : starts ≠ [] := List.ne_nil_of_mem hk
    simp [hstarts]
    omega
  rw [search_eq, if_neg hidle] at done ⊢
  rw [← hchain]
  exact pursue_printed_or_prunes types done hmem (Limits.excludes_eq_false_iff.2 hwanted)
    (ht ▸ valid.admitted) (hlength ▸ valid.length_le) accepted

/-- **An exhausted search has found all it did not prune.** When a search ends
exhausted, whatever was found before it and is kept in its memo, the text of
every valid chain is that of a chain found, unless a trail that the chain goes
on from left the queue while too many others waited. -/
theorem exhausted_complete (hmax : 1 ≤ L.maxChains) (I : Interruptions) (starts : List Link)
    (types : List JavaType) (s : SearchState F L)
    (done : (s.search I starts types).status = .exhausted) (c : Chain)
    (valid : c.Valid F L starts types) :
    (∃ d ∈ (s.search I starts types).outcome.chains, d.printed = c.printed) ∨
      ∃ u, Moment I starts types s.begun u ∧ u.Prunes c.links :=
  (search_printed_or_prunes hmax done valid).imp_left List.mem_map.1

end SearchState

/-- From a local, with values of its own type wanted, the longest chain leads
back to the type. -/
theorem Circle.exhausted_circle :
    (facts.search limits .none [start "x"] [.named "A"]).status = .exhausted ∧
    ∃ c : Chain, c.Valid facts limits [start "x"] [.named "A"] ∧ c.printed = "x.bs.a" ∧
      ∃ d ∈ (facts.search limits .none [start "x"] [.named "A"]).chains, d.printed = c.printed := by
  have hdone : (({} : SearchState facts limits).search .none [start "x"] [.named "A"]).status =
      .exhausted := by decide
  let bs : Link := .ofMember (.field "A" "bs" (.array (.named "B") 1)) .field (.array (.named "B") 1) 1 false
  let a : Link := .ofMember (.field "B" "a" (.named "A")) .field (.named "A") 0 false
  let c : Chain := { links := [start "x", bs, a], keptDims := 0 }
  have hvalid : c.Valid facts limits [start "x"] [.named "A"] := {
    admitted := {
      head := ⟨start "x", by simp, rfl⟩
      follows := by
        refine List.isChain_cons_cons.2 ⟨?_, List.isChain_pair.2 ?_⟩
        · exact ⟨_, rfl, _, List.mem_singleton.2 rfl, _, rfl, rfl⟩
        · exact ⟨_, rfl, _, List.mem_singleton.2 rfl, _, rfl, rfl⟩
      noLeaf := by decide
      allowed := by
        intro l hl
        rw [← Limits.excludes_eq_false_iff]
        revert l hl
        decide
      distinct := by decide }
    le_length := by decide
    length_le := by decide
    ends := ⟨.named "A", by simp, Limits.excludes_eq_false_iff.1 (by decide), rfl, a, rfl, by decide, rfl,
      rfl, by decide⟩ }
  refine ⟨hdone, c, hvalid, by decide, ?_⟩
  rcases SearchState.exhausted_complete (by decide) .none [start "x"] [.named "A"]
      ({} : SearchState facts limits) hdone c hvalid with found | ⟨u, hu, pruned⟩
  · exact found
  · have hroom := SearchState.hasRoom_of_narrow length_expansion_le (by decide) hu
    exact absurd pruned (hroom.not_prunes c.links)

/-! ### Chains that are pruned -/

/-- Looks at trails that are no chains leave what comes of them waiting, if the
queue never gets too long meanwhile. -/
theorem SearchState.Calm.visitTimes_unfit {g : Goal} (width : Nat) (hwidth : 1 ≤ width)
    (ts rest : List Trail) {s : SearchState F L} (calm : s.Calm) (running : s.isStopped = false)
    (waiting : s.waiting.toList = ts ++ rest) (unfit : ∀ t ∈ ts, F.accepts L g t = false)
    (narrow : ∀ t ∈ ts, (F.branches L 0 t).length ≤ width)
    (room : rest.length + width * ts.length < maxWaiting + width) :
    (s.visitTimes .none g ts.length).isStopped = false ∧
      (s.visitTimes .none g ts.length).findings = s.findings ∧
      (s.visitTimes .none g ts.length).waiting.toList = rest ++ ts.flatMap (F.branches L 0) := by
  induction ts generalizing s rest with
  | nil => exact ⟨running, rfl, by simpa [SearchState.visitTimes] using waiting⟩
  | cons t ts ih =>
    rw [List.cons_append] at waiting
    have hunfit : F.accepts L g t = false := unfit t List.mem_cons_self
    have hroom : (ts ++ rest).length < maxWaiting := by
      have hle : ts.length ≤ width * ts.length := Nat.le_mul_of_pos_left _ hwidth
      rw [List.length_cons, Nat.mul_succ] at room
      rw [List.length_append]
      omega
    have hbranches : F.branches L (ts ++ rest).length t = F.branches L 0 t :=
      Facts.branches_of_lt fun _ => hroom
    obtain ⟨hfound, ⟨haccepted, -⟩ | ⟨-, hstatus, hwait⟩⟩ := calm.visit_cases g running waiting
    · rw [hunfit] at haccepted
      cases haccepted
    · rw [hbranches, List.append_assoc] at hwait
      have hnarrow := narrow t List.mem_cons_self
      rw [List.length_cons, Nat.mul_succ] at room
      obtain ⟨hruns, hfound', hwait'⟩ := ih (rest ++ F.branches L 0 t) (calm.visit g)
        (isStopped_eq_false_iff.2 hstatus) hwait (fun u hu => unfit u (List.mem_cons_of_mem _ hu))
        (fun u hu => narrow u (List.mem_cons_of_mem _ hu))
        (by rw [List.length_append]; omega)
      rw [List.length_cons, SearchState.visitTimes]
      refine ⟨hruns, ?_, ?_⟩
      · rw [hfound', hfound, Facts.judge, hunfit]
        rfl
      · rw [hwait', List.flatMap_cons, List.append_assoc]

namespace Crowd

/-- One of the fields of an `N`. -/
def field (i : Nat) : Member := .field "N" ("b" ++ Nat.repr i) (.named "D")

/-- What is known of four types: an `N` has many fields of type `D`, an `A` has
one of type `T`, a `D` and a `T` have none. -/
def facts : Facts where
  members := fun _ type =>
    if type = .named "N" then .ok ((List.range 224).map field)
    else if type = .named "A" then .ok [.field "A" "t" (.named "T")]
    else .error (.unresolvedType type.fullText)
  typeOf := fun m => .ok m.type
  assignable := fun a b => a == b

/-- A local variable, as a link. -/
def start (name type : String) : Link :=
  .ofMember (.localVar name (.named type)) .localVar (.named type) 0 false

/-- As many local variables of type `N`. -/
def crowd : List Link := (List.range 224).map fun i => start ("x" ++ Nat.repr i) "N"

/-- They and, last, one of type `A`. -/
def starts : List Link := crowd ++ [start "y" "A"]

def limits : Limits := { Circle.limits with maxChains := 20, maxLength := 2, excluded := [] }

/-- The field of the last variable. -/
def missed : Chain where
  links := [start "y" "A", .ofMember (.field "A" "t" (.named "T")) .field (.named "T") 0 false]
  keptDims := 0

def goal : Goal := .ofType (.named "T")

theorem expansion_hub : facts.expansion limits (.named "N") =
    (List.range 224).map fun i => .ofMember (field i) .field (.named "D") 0 false := by
  have hmembers : facts.members .value (.named "N") = .ok ((List.range 224).map field) := rfl
  have hlink : ∀ i, facts.follower? limits (field i) =
      some (.ofMember (field i) .field (.named "D") 0 false) := fun i => rfl
  rw [Facts.expansion, hmembers]
  simp only [List.filterMap_map, Function.comp_def, hlink, List.filterMap_eq_map']

theorem uses_field (name type : String) (i : Nat) :
    Trail.uses { tail := start name type } (.ofMember (field i) .field (.named "D") 0 false) = false := by
  have hne : ("#" ++ name : String) ≠ (field i).key := by
    intro h
    have hhead := congrArg (fun s : String => s.toList.head?) h
    simp [field, Member.key, Member.field, Member.ownerSignature?, JavaName.signature] at hhead
  rw [Bool.eq_false_iff, ne_eq, Trail.uses_iff]
  simpa [Trail.links, Link.key_eq, start, Link.ofMember, Member.key, Member.localVar, eq_comm] using hne

theorem branches_hub (name : String) : facts.branches limits 0 { tail := start name "N" } =
    (List.range 224).map fun i => Trail.extend { tail := start name "N" }
      (.ofMember (field i) .field (.named "D") 0 false) := by
  have hgrows : ¬ (decide (limits.maxLength ≤ Trail.length { tail := start name "N" }) ||
      decide (maxWaiting ≤ 0)) = true := by
    simp [Trail.length, limits, maxWaiting]
  have htype : (start name "N").type.elementType = .named "N" := rfl
  rw [Facts.branches, if_neg hgrows, htype, expansion_hub, Trail.extensions, List.filter_eq_self.2, List.map_map]
  · rfl
  · intro l hl
    obtain ⟨i, -, rfl⟩ := List.mem_map.1 hl
    rw [uses_field, Bool.not_false]

theorem accepts_eq_false {t : Trail} (h : t.tail.type ≠ .named "T") (hvalue : t.tail.type.elementType = t.tail.type) :
    facts.accepts limits goal t = false := by
  have hassign : facts.assignable t.tail.type.elementType goal.element = false := by
    have hgoal : goal.element = .named "T" := rfl
    rw [hvalue, hgoal]
    simpa [facts] using h
  rw [Facts.accepts, Facts.reaches, hassign, Bool.and_false, Bool.and_false]

/-- When the last variable has left the queue, only trails with a value of type `D` are left. -/
structure Spent (s : SearchState facts limits) : Prop where
  calm : s.Calm
  running : s.isStopped = false
  findings : s.findings = .empty
  waiting : ∀ t ∈ s.waiting.toList, t.tail.type = .named "D" ∧ t.length = 2

theorem Spent.visit {s : SearchState facts limits} (h : Spent s) : Spent (s.visit .none goal) := by
  cases hw : s.waiting.toList with
  | nil =>
    rw [SearchState.visit_of_isOver (.inr hw)]
    exact h
  | cons t rest =>
    have hall := h.waiting
    rw [hw] at hall
    obtain ⟨htype, hlength⟩ := hall t List.mem_cons_self
    have hunfit : facts.accepts limits goal t = false :=
      accepts_eq_false (by rw [htype]; decide) (by rw [htype]; rfl)
    have hnone : facts.branches limits rest.length t = [] := by
      rw [Facts.branches, if_pos]
      rw [hlength]
      rfl
    obtain ⟨hfound, ⟨haccepted, -⟩ | ⟨-, hstatus, hwait⟩⟩ := h.calm.visit_cases goal h.running hw
    · rw [hunfit] at haccepted
      cases haccepted
    · rw [hnone, List.append_nil] at hwait
      constructor
      · exact h.calm.visit goal
      · exact SearchState.isStopped_eq_false_iff.2 hstatus
      · rw [hfound, Facts.judge, hunfit, h.findings]
        rfl
      · rw [hwait]
        exact fun u hu => hall u (List.mem_cons_of_mem _ hu)

theorem openings_starts : limits.openings starts = starts := by
  have hstart : ∀ name type, (!(start name type).isLeaf && !limits.excludes (start name type).key) = true :=
    fun _ _ => rfl
  refine List.filter_eq_self.2 fun l hl => ?_
  rcases List.mem_append.1 hl with hl | hl
  · obtain ⟨i, -, rfl⟩ := List.mem_map.1 hl
    exact hstart _ _
  · obtain rfl := List.mem_singleton.1 hl
    exact hstart _ _

/-- The trails of the crowd. -/
def trails : List Trail := crowd.map fun l => { tail := l }

theorem exists_of_mem_trails {t : Trail} (h : t ∈ trails) : ∃ name, t = { tail := start name "N" } := by
  obtain ⟨l, hl, rfl⟩ := List.mem_map.1 h
  obtain ⟨i, -, rfl⟩ := List.mem_map.1 hl
  exact ⟨_, rfl⟩

theorem length_trails : trails.length = 224 := by
  rw [trails, crowd, List.length_map, List.length_map, List.length_range]

theorem length_flatMap_trails : (trails.flatMap (facts.branches limits 0)).length = 224 * 224 := by
  have hlength : trails.map (fun t => (facts.branches limits 0 t).length) = trails.map fun _ => 224 := by
    refine List.map_congr_left fun t ht => ?_
    obtain ⟨name, rfl⟩ := exists_of_mem_trails ht
    rw [branches_hub, List.length_map, List.length_range]
  rw [List.length_flatMap, hlength, List.map_const', List.sum_replicate_nat, length_trails]

theorem calm_enter : (({} : SearchState facts limits).enter starts).Calm := ⟨rfl, rfl, rfl⟩

/-- When no variable of type `N` is wanted and all have left the queue, more
trails wait behind the last variable than may. -/
theorem visitTimes_trails {g : Goal}
    (unfit : ∀ name, facts.accepts limits g { tail := start name "N" } = false) :
    ((({} : SearchState facts limits).enter starts).visitTimes .none g 224).isStopped = false ∧
    ((({} : SearchState facts limits).enter starts).visitTimes .none g 224).findings = .empty ∧
    ((({} : SearchState facts limits).enter starts).visitTimes .none g 224).waiting.toList =
      { tail := start "y" "A" } :: trails.flatMap (facts.branches limits 0) := by
  have hwaiting : (({} : SearchState facts limits).enter starts).waiting.toList =
      trails ++ [{ tail := start "y" "A" }] := by
    rw [SearchState.waiting_enter, openings_starts, starts, List.map_append]
    rfl
  have hunfit : ∀ t ∈ trails, facts.accepts limits g t = false := by
    intro t ht
    obtain ⟨name, rfl⟩ := exists_of_mem_trails ht
    exact unfit name
  have hwidth : ∀ t ∈ trails, (facts.branches limits 0 t).length ≤ 224 := by
    intro t ht
    obtain ⟨name, rfl⟩ := exists_of_mem_trails ht
    rw [branches_hub, List.length_map, List.length_range]
  have hlooks := calm_enter.visitTimes_unfit 224 (by decide) trails [{ tail := start "y" "A" }] rfl
    hwaiting hunfit hwidth (by rw [length_trails]; decide)
  rw [length_trails, List.singleton_append] at hlooks
  exact hlooks

theorem spent_visitTimes :
    Spent ((({} : SearchState facts limits).enter starts).visitTimes .none goal 225) := by
  let y : Trail := { tail := start "y" "A" }
  have hunfit : ∀ name, facts.accepts limits goal { tail := start name "N" } = false := by
    intro name
    have hne : JavaType.named "N" ≠ .named "T" := by decide
    exact accepts_eq_false hne rfl
  obtain ⟨hruns, hfound, hwait⟩ := visitTimes_trails hunfit
  -- more wait behind the last variable than may, so that it is not extended
  have hnone : facts.branches limits (trails.flatMap (facts.branches limits 0)).length y = [] := by
    rw [length_flatMap_trails]
    rfl
  have hlast : facts.accepts limits goal y = false := by
    have hne : JavaType.named "A" ≠ .named "T" := by decide
    exact accepts_eq_false hne rfl
  have hcalm := calm_enter.visitTimes goal 224
  obtain ⟨hfound', ⟨haccepted, -⟩ | ⟨-, hstatus, hwait'⟩⟩ := hcalm.visit_cases goal hruns hwait
  · rw [hlast] at haccepted
    cases haccepted
  · rw [SearchState.visitTimes_succ]
    rw [hnone, List.append_nil] at hwait'
    constructor
    · exact hcalm.visit goal
    · exact SearchState.isStopped_eq_false_iff.2 hstatus
    · rw [hfound', Facts.judge, hlast, hfound]
      rfl
    · rw [hwait']
      intro u hu
      obtain ⟨t, ht, hu⟩ := List.mem_flatMap.1 hu
      obtain ⟨name, rfl⟩ := exists_of_mem_trails ht
      rw [branches_hub] at hu
      obtain ⟨i, -, rfl⟩ := List.mem_map.1 hu
      exact ⟨rfl, rfl⟩

/-- The search ends exhausted and has found nothing. -/
theorem spent_search : Spent (({} : SearchState facts limits).search .none starts [.named "T"]) := by
  let s : SearchState facts limits := {}
  obtain ⟨m, hm⟩ := SearchState.explore_eq_visitTimes .none starts goal s
  have hend : s.explore .none starts goal = ((s.enter starts).visitTimes .none goal 225).visitTimes .none goal m := by
    have ended := SearchState.isOver_explore (I := .none) (g := goal) starts s
    rw [← SearchState.visitTimes_of_isOver (I := .none) (g := goal) ended 225]
    rw [hm, ← SearchState.visitTimes_add, Nat.add_comm, SearchState.visitTimes_add]
  have hspent : Spent (s.explore .none starts goal) := by
    rw [hend]
    exact SearchState.visitTimes_preserves (fun u hu => hu.visit) m spent_visitTimes
  have hsearch : s.search .none starts [.named "T"] = s.explore .none starts goal := by
    have hroom : ¬ limits.maxChains ≤ s.begun.findings.size := by decide
    have hwanted : ¬ limits.excludes (JavaType.named "T").elementType.signature = true := by decide
    have hidle : ¬ (decide (limits.maxChains = 0) || starts.isEmpty) = true := by decide
    rw [SearchState.search_eq, if_neg hidle, SearchState.pursue, if_neg hroom, if_neg hwanted]
    have hruns : (s.begun.explore .none starts (Goal.ofType (.named "T"))).isStopped = false := hspent.running
    simp only
    rw [hruns, if_neg Bool.false_ne_true, SearchState.pursue]
    rfl
  rw [hsearch]
  exact hspent

/-- An exhausted search may miss a valid chain: of the variables the last is
not extended, as too many trails wait behind it. -/
theorem exhausted_misses :
    1 ≤ limits.minLength ∧ limits.minLength ≤ limits.maxLength ∧ 1 ≤ limits.maxChains ∧
    (facts.search limits .none starts [.named "T"]).status = .exhausted ∧
    missed.Valid facts limits starts [.named "T"] ∧
    ¬ ∃ d ∈ (facts.search limits .none starts [.named "T"]).chains, d.printed = missed.printed := by
  have hsearch : facts.search limits .none starts [.named "T"] = { status := .exhausted, chains := [] } := by
    have hstatus := SearchState.isStopped_eq_false_iff.1 spent_search.running
    rw [Facts.search, SearchState.outcome, hstatus, spent_search.findings]
    rfl
  rw [hsearch]
  refine ⟨by decide, by decide, by decide, rfl, ?_, ?_⟩
  · exact {
      admitted := {
        head := ⟨start "y" "A", by simp [starts], rfl⟩
        follows := by
          refine List.isChain_pair.2 ?_
          exact ⟨_, rfl, _, List.mem_singleton.2 rfl, _, rfl, rfl⟩
        noLeaf := by decide
        allowed := fun l _ start hstart => absurd hstart List.not_mem_nil
        distinct := by decide }
      le_length := by decide
      length_le := by decide
      ends := ⟨.named "T", by simp, fun start hstart => absurd hstart List.not_mem_nil, rfl, _, rfl, by decide,
        rfl, rfl, by decide⟩ }
  · simp

end Crowd
end CallChain
