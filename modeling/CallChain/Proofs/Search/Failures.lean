/-
# Members that fail

When the types of some members cannot be told, the chains that are valid are
those that were valid before and use none of these members after their start.
So a search that goes through all there is finds, up to texts, what it would
have found with all types known, but for the chains that lead through a failing
member; a chain is not lost because another with the same text is.

Key theorems: `Chain.valid_failing_iff`, `Facts.failures_isolated`.
-/
import CallChain.Proofs.Search.Completeness

namespace CallChain

variable {F : Facts} {L : Limits} {failure : Member → Option LookupError}

/-! ### Chains without failing members -/

theorem Facts.offers_failing_iff {type : JavaType} {l : Link} :
    (F.failing failure).Offers type l ↔ F.Offers type l ∧ failure l.member = none := by
  constructor
  · rintro ⟨ms, hms, m, hm, memberType, htype, hl⟩
    have hmember : l.member = m := Link.member_of_make hl
    simp only [failing] at htype
    cases hf : failure m with
    | some e => simp [hf] at htype
    | none =>
      rw [hf] at htype
      exact ⟨⟨ms, hms, m, hm, memberType, htype, hl⟩, by rw [hmember, hf]⟩
  · rintro ⟨⟨ms, hms, m, hm, memberType, htype, hl⟩, hnone⟩
    rw [Link.member_of_make hl] at hnone
    refine ⟨ms, hms, m, hm, memberType, ?_, hl⟩
    simp only [failing, hnone]
    exact htype

/-- A row of links is still one in which each follows the one before it if none
after the first fails. -/
theorem Facts.isChain_failing_iff {ls : List Link} :
    ls.IsChain (F.failing failure).Follows ↔
      ls.IsChain F.Follows ∧ ∀ l ∈ ls.tail, failure l.member = none := by
  have hfollows : (F.failing failure).Follows = fun k l => F.Follows k l ∧ failure l.member = none := by
    funext k l
    exact propext offers_failing_iff
  rw [hfollows, isChain_and_iff]

/-- The chains that are valid although members fail. -/
theorem Chain.valid_failing_iff {starts : List Link} {types : List JavaType} {c : Chain} :
    c.Valid (F.failing failure) L starts types ↔
      c.Valid F L starts types ∧ ∀ l ∈ c.links.tail, failure l.member = none := by
  constructor
  · intro h
    obtain ⟨hfollows, hsafe⟩ := Facts.isChain_failing_iff.1 h.admitted.follows
    exact ⟨⟨{ h.admitted with follows := hfollows }, h.le_length, h.length_le, h.ends⟩, hsafe⟩
  · rintro ⟨h, hsafe⟩
    have hfollows := Facts.isChain_failing_iff.2 ⟨h.admitted.follows, hsafe⟩
    exact ⟨{ h.admitted with follows := hfollows }, h.le_length, h.length_le, h.ends⟩

/-! ### Searches that go through all there is -/

variable {I J : Interruptions} {starts : List Link} {types : List JavaType} {c : Chain}

theorem Facts.one_le_maxChains_of_mem_search (h : c ∈ (F.search L I starts types).chains) :
    1 ≤ L.maxChains := by
  by_contra hnone
  have hzero : L.maxChains = 0 := by omega
  have hsearch : ({} : SearchState F L).search I starts types = ({} : SearchState F L).begun := by
    rw [SearchState.search_eq, if_pos (by simp [hzero])]
  rw [search, hsearch] at h
  cases h

/-- An exhausted search whose queue has always had room has found the texts of
all valid chains. -/
theorem Facts.exists_printed_of_valid (done : (F.search L I starts types).status = .exhausted)
    (roomy : ∀ u, SearchState.Moment I starts types ({} : SearchState F L) u → u.HasRoom)
    (hmax : 1 ≤ L.maxChains) (valid : c.Valid F L starts types) :
    ∃ d ∈ (F.search L I starts types).chains, d.printed = c.printed := by
  rcases SearchState.search_printed_or_prunes (s := ({} : SearchState F L)) hmax done valid with
    found | ⟨u, hu, pruned⟩
  · exact List.mem_map.1 found
  · exact absurd pruned ((roomy u hu).not_prunes c.links)

/-- **Members that fail take only their own chains along.** Of two exhausted
searches whose queues have always had room, one with all facts and one in which
the types of some members cannot be told, the second finds only texts that the
first finds, no chain of it uses such a member after its start, and it finds
the text of every chain of the first that uses none. -/
theorem Facts.failures_isolated (F : Facts) (failure : Member → Option LookupError) (L : Limits)
    (I J : Interruptions) (starts : List Link) (types : List JavaType)
    (clean : (F.search L I starts types).status = .exhausted)
    (faulty : ((F.failing failure).search L J starts types).status = .exhausted)
    (roomy : ∀ u, SearchState.Moment I starts types ({} : SearchState F L) u → u.HasRoom)
    (roomy' : ∀ u, SearchState.Moment J starts types ({} : SearchState (F.failing failure) L) u →
      u.HasRoom) :
    (∀ c ∈ ((F.failing failure).search L J starts types).chains,
      (∃ d ∈ (F.search L I starts types).chains, d.printed = c.printed) ∧
      ∀ l ∈ c.links.tail, failure l.member = none) ∧
    ∀ c ∈ (F.search L I starts types).chains, (∀ l ∈ c.links.tail, failure l.member = none) →
      ∃ d ∈ ((F.failing failure).search L J starts types).chains, d.printed = c.printed := by
  constructor
  · intro c hc
    have hmax := one_le_maxChains_of_mem_search hc
    obtain ⟨hvalid, hsafe⟩ := Chain.valid_failing_iff.1 (valid_of_mem_search hc)
    exact ⟨exists_printed_of_valid clean roomy hmax hvalid, hsafe⟩
  · intro c hc hsafe
    have hmax := one_le_maxChains_of_mem_search hc
    have hvalid := Chain.valid_failing_iff.2 ⟨valid_of_mem_search hc, hsafe⟩
    exact exists_printed_of_valid faulty roomy' hmax hvalid

/-- With the type of the member `a` unknown, the chain back to the start is not
found, and the start itself still is. -/
theorem Circle.isolated_circle :
    let failure := fun m : Member =>
      if m.name = "a" then some (LookupError.internal "a is gone") else none
    let clean := facts.search limits .none [start "x"] [.named "A"]
    let faulty := (facts.failing failure).search limits .none [start "x"] [.named "A"]
    clean.status = .exhausted ∧ faulty.status = .exhausted ∧
    clean.chains.map Chain.printed = ["x", "x.bs.a"] ∧
    faulty.chains.map Chain.printed = ["x"] ∧
    (∀ c ∈ faulty.chains, (∃ d ∈ clean.chains, d.printed = c.printed) ∧
      ∀ l ∈ c.links.tail, failure l.member = none) ∧
    ∀ c ∈ clean.chains, (∀ l ∈ c.links.tail, failure l.member = none) →
      ∃ d ∈ faulty.chains, d.printed = c.printed := by
  intro failure clean faulty
  have hclean : clean.status = .exhausted := by decide
  have hfaulty : faulty.status = .exhausted := by decide
  have hnarrow : ∀ type, ((facts.failing failure).expansion limits type).length ≤ 1 :=
    fun _ => Facts.length_expansion_le fun _ h => length_members_le h
  have hisolated := facts.failures_isolated failure limits .none .none [start "x"] [.named "A"]
    hclean hfaulty
    (fun _ hu => SearchState.hasRoom_of_narrow length_expansion_le (by decide) hu)
    (fun _ hu => SearchState.hasRoom_of_narrow hnarrow (by decide) hu)
  exact ⟨hclean, hfaulty, by decide, by decide, hisolated.1, hisolated.2⟩

end CallChain
