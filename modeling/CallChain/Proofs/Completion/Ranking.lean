/-
# Ranking keeps the order of a search

Proposals are sorted by relevance, which falls as chains get longer, so that
shorter chains come first; those of one length keep their order, as the sort is
stable. A search for one type has found its chains in that order already, and
ranking leaves them as they are.

Relevance tells lengths apart as long as a length and the malus together fit
into an integer of 32 bits.

Key definition: `Chain.IsRankable`.
Key theorems: `Proposal.filter_rank`, `Proposal.rank_of_pairwise`,
`SearchState.rank_follows_search`.
-/
import CallChain.Proofs.Search.Order
import CallChain.Proposal

namespace CallChain

/-- The length of the chain and the malus together are an integer of 32 bits. -/
def Chain.IsRankable (c : Chain) : Prop := c.length + chainMalus ≤ maxInt32

instance (c : Chain) : Decidable c.IsRankable := inferInstanceAs (Decidable (_ ≤ _))

namespace Proposal

/-- The order by which proposals are sorted. -/
def before (p q : Proposal) : Bool := q.relevance ≤ p.relevance

theorem rank_eq (chains : List Chain) : rank chains = (chains.map ofChain).mergeSort before := rfl

theorem before_trans (p q r : Proposal) (hpq : p.before q = true) (hqr : q.before r = true) :
    p.before r = true := by
  simp only [before, decide_eq_true_eq] at hpq hqr ⊢
  omega

theorem before_total (p q : Proposal) : (p.before q || q.before p) = true := by
  simp only [before, Bool.or_eq_true, decide_eq_true_eq]
  omega

theorem before_of_length_eq {p q : Proposal} (h : p.chain.length = q.chain.length) :
    p.before q = true := by
  simp [before, relevance, h]

theorem before_iff {p q : Proposal} (hp : p.chain.IsRankable) (hq : q.chain.IsRankable) :
    p.before q = true ↔ p.chain.length ≤ q.chain.length := by
  unfold Chain.IsRankable at hp hq
  have hpmax : p.chain.length ≤ maxInt32 := by omega
  have hqmax : q.chain.length ≤ maxInt32 := by omega
  rw [before, decide_eq_true_eq, relevance, relevance, relevanceOfLength_of_le hpmax,
    relevanceOfLength_of_le hqmax]
  omega

theorem mem_rank {chains : List Chain} {p : Proposal} :
    p ∈ rank chains ↔ ∃ c ∈ chains, ofChain c = p := by
  rw [(rank_perm chains).mem_iff, List.mem_map]

theorem chain_mem_of_mem_rank {chains : List Chain} {p : Proposal} (h : p ∈ rank chains) :
    p.chain ∈ chains := by
  obtain ⟨c, hc, rfl⟩ := mem_rank.1 h
  exact hc

theorem pairwise_rank {chains : List Chain} (rankable : ∀ c ∈ chains, c.IsRankable) :
    (rank chains).Pairwise fun p q => p.chain.length ≤ q.chain.length := by
  have hsorted : (rank chains).Pairwise fun p q => p.before q = true :=
    List.pairwise_mergeSort before_trans before_total _
  have hrankable : ∀ p ∈ rank chains, p.chain.IsRankable :=
    fun p hp => rankable _ (chain_mem_of_mem_rank hp)
  exact hsorted.imp_of_mem fun hp hq h => (before_iff (hrankable _ hp) (hrankable _ hq)).1 h

/-- Chains that are in order of their lengths are ranked as they are. -/
theorem rank_of_pairwise {chains : List Chain} (rankable : ∀ c ∈ chains, c.IsRankable)
    (h : chains.Pairwise fun c d => c.length ≤ d.length) : rank chains = chains.map ofChain := by
  rw [rank_eq]
  apply List.mergeSort_of_pairwise
  rw [List.pairwise_map]
  exact h.imp_of_mem fun hc hd hle => (before_iff (rankable _ hc) (rankable _ hd)).2 hle

/-- Proposals for chains of one length keep their order. -/
theorem filter_rank (chains : List Chain) (n : Nat) :
    (rank chains).filter (fun p => p.chain.length = n) =
      (chains.filter fun c => c.length = n).map ofChain := by
  have hcommute : (chains.filter fun c => c.length = n).map ofChain =
      (chains.map ofChain).filter fun p => p.chain.length = n := by
    rw [List.filter_map]
    rfl
  rw [hcommute]
  have hequal : ((chains.map ofChain).filter fun p => p.chain.length = n).Pairwise
      fun p q => p.before q = true := by
    rw [List.pairwise_filter]
    refine List.pairwise_of_forall fun p q hp hq => before_of_length_eq ?_
    rw [of_decide_eq_true hp, of_decide_eq_true hq]
  -- the sort takes the proposals of one length over as they stand
  have hkept : ((chains.map ofChain).filter fun p => p.chain.length = n).Sublist (rank chains) :=
    List.sublist_mergeSort before_trans before_total hequal List.filter_sublist
  have hkept' := hkept.filter fun p => p.chain.length = n
  rw [List.filter_filter] at hkept'
  simp only [Bool.and_self] at hkept'
  have hlength := ((rank_perm chains).filter fun p => p.chain.length = n).length_eq
  exact (hkept'.eq_of_length hlength.symm).symm

end Proposal

/-- **Ranking keeps the order of a search.** However a search for one type
ends, the chains that it has found are in order of their lengths, and if they
can be ranked, this is the order in which they are proposed. Any chains that can
be ranked, those for several types too, are all proposed, shorter ones first,
and those of one length in the order that they had. -/
theorem SearchState.rank_follows_search {F : Facts} {L : Limits} (I : Interruptions)
    (starts : List Link) (type : JavaType) (s u : SearchState F L) (fresh : s.findings.toList = [])
    (h : Moment I starts [type] s.begun u ∨ u = s.search I starts [type]) :
    u.findings.toList.Pairwise (fun c d => c.length ≤ d.length) ∧
    ((∀ c ∈ u.findings.toList, c.IsRankable) →
      Proposal.rank u.findings.toList = u.findings.toList.map Proposal.ofChain) ∧
    ∀ chains : List Chain, (∀ c ∈ chains, c.IsRankable) →
      (Proposal.rank chains).Perm (chains.map Proposal.ofChain) ∧
      (Proposal.rank chains).Pairwise (fun p q => p.chain.length ≤ q.chain.length) ∧
      ∀ n, (Proposal.rank chains).filter (fun p => p.chain.length = n) =
        (chains.filter fun c => c.length = n).map Proposal.ofChain := by
  have hrising := pairwise_length_le fresh h
  exact ⟨hrising, fun rankable => Proposal.rank_of_pairwise rankable hrising,
    fun chains rankable => ⟨Proposal.rank_perm chains, Proposal.pairwise_rank rankable,
      Proposal.filter_rank chains⟩⟩

/-- A search for values of one type that is called off at its sixth look; and a
search for values of two, of which the first is found in longer chains. -/
theorem Circle.rank_circle :
    let u := ({} : SearchState facts limits).search { cancelledAt := fun n => n == 5 }
      [start "x", start "y"] [.named "A"]
    let chains := (facts.search limits .none [start "x", start "y"] [.named "B", .named "A"]).chains
    u.status = .cancelled ∧ u.findings.toList.map Chain.printed = ["x", "y", "x.bs.a"] ∧
    Proposal.rank u.findings.toList = u.findings.toList.map Proposal.ofChain ∧
    chains.map Chain.printed = ["x.bs", "y.bs", "x", "y", "x.bs.a"] ∧
    (Proposal.rank chains).Pairwise (fun p q => p.chain.length ≤ q.chain.length) ∧
    ((Proposal.rank chains).filter fun p => p.chain.length = 1).map (·.chain.printed) = ["x", "y"] ∧
    ((Proposal.rank chains).filter fun p => p.chain.length = 2).map (·.chain.printed) =
      ["x.bs", "y.bs"] := by
  intro u chains
  obtain ⟨-, hone, hall⟩ := SearchState.rank_follows_search { cancelledAt := fun n => n == 5 }
    [start "x", start "y"] (.named "A") ({} : SearchState facts limits) u rfl (.inr rfl)
  obtain ⟨-, hpairwise, hfilter⟩ := hall chains (by decide)
  refine ⟨by decide, by decide, hone (by decide), by decide, hpairwise, ?_, ?_⟩
  · rw [hfilter 1]
    decide
  · rw [hfilter 2]
    decide

end CallChain
