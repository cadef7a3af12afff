/-
# No two proposals look the same

A search keeps no two chains that are printed alike. What a user sees are the
titles, which are made apart from the printed chains and place `this` by a rule
of their own; but the starts of a request are reached through `this` only where
they are fields, so that the rules agree, and plain chains with one title are
printed alike.

Key theorem: `Completion.nodup_titles`.
-/
import CallChain.Proofs.Completion.Proposals
import CallChain.Proofs.Completion.Starts
import CallChain.Proofs.Snippet.Title
import Mathlib.Data.List.Nodup

namespace CallChain

theorem Chain.Valid.isPlain {F : Facts} {L : Limits} {r : Request} {types : List JavaType}
    {c : Chain} (h : c.Valid F L (r.starts F) types) (members : ∀ l ∈ c.links, l.member.IsPlain) :
    c.IsPlain where
  made := h.admitted.isMade (r.isMade_starts F)
  members := members
  this := by
    intro l hl
    obtain ⟨k, hk, hhead⟩ := h.admitted.head
    obtain rfl : k = l := Option.some.inj (hhead.symm.trans hl)
    exact Request.kind_of_ofThis hk

theorem Proposal.nodup_titles_rank_iff {chains : List Chain} :
    ((rank chains).map (·.snippet.title)).Nodup ↔ (chains.map Chain.title).Nodup := by
  have hperm : ((rank chains).map (·.snippet.title)).Perm
      ((chains.map ofChain).map (·.snippet.title)) := (rank_perm chains).map _
  rw [hperm.nodup_iff, List.map_map]
  rfl

/-- **No two proposals look the same.** However the search for a request ends,
and wherever a value is wanted, the titles of the proposals differ, if the
members in their chains are plain. -/
theorem Completion.nodup_titles (known : String → Option Facts) (I : Interruptions) (s : Settings)
    (r : Request) {c : Completion} (h : completeBy known I s r = .ok c)
    (plain : ∀ p ∈ c.proposals, ∀ l ∈ p.chain.links, l.member.IsPlain) :
    (c.proposals.map (·.snippet.title)).Nodup := by
  obtain ⟨L, -, hnil | ⟨F, type, -, hproposals⟩⟩ := proposals_of_completeBy h
  · rw [hnil]
    exact List.nodup_nil
  · have hchains : ∀ d ∈ (F.search L I (r.starts F) [type]).chains, d.IsPlain := by
      intro d hd
      refine (Facts.valid_of_mem_search hd).isPlain (plain (Proposal.ofChain d) ?_)
      rw [hproposals]
      exact Proposal.mem_rank.2 ⟨d, hd, rfl⟩
    have hprinted := F.nodup_printed_search L I (r.starts F) [type]
    rw [hproposals, Proposal.nodup_titles_rank_iff]
    -- what differs in print differs in its title
    refine List.Nodup.map_on (fun d hd e he htitle => ?_) hprinted.of_map
    exact List.inj_on_of_nodup_map hprinted hd he
      ((hchains d hd).printed_eq_of_title_eq (hchains e he) htitle)

/-- Four proposals, two of them through a field that a local variable hides. -/
theorem Circle.titles_circle :
    ∃ c, completeBy (fun _ => some facts) .none { minLength := 1 } (request (.named "A")) = .ok c ∧
      (∀ p ∈ c.proposals, ∀ l ∈ p.chain.links, l.member.IsPlain) ∧
      c.proposals.map (·.snippet.title) = ["x", "this.x", "x.bs[].a", "this.x.bs[].a"] ∧
      (c.proposals.map (·.snippet.title)).Nodup := by
  have hcompletion : ∃ c,
      completeBy (fun _ => some facts) .none { minLength := 1 } (request (.named "A")) = .ok c ∧
      (∀ p ∈ c.proposals, ∀ l ∈ p.chain.links, l.member.IsPlain) ∧
      c.proposals.map (·.snippet.title) = ["x", "this.x", "x.bs[].a", "this.x.bs[].a"] := by
    refine ⟨_, rfl, ?_, ?_⟩
    · rw [proposals_completeWithin rfl, Proposal.rank_of_pairwise (by decide) (by decide)]
      rw [List.forall_mem_map]
      decide
    · rw [proposals_completeWithin rfl, Proposal.rank_of_pairwise (by decide) (by decide)]
      decide
  obtain ⟨c, hc, hplain, htitles⟩ := hcompletion
  exact ⟨c, hc, hplain, htitles, Completion.nodup_titles _ _ _ _ hc hplain⟩

end CallChain
