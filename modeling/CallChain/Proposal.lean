/-
# Proposals

A chain with its snippet, as it is offered to a user. Shorter chains are more
relevant; chains of one length keep their order.

The relevance is an exact integer. That of the last lengths of 32 bits needs
more bits than these, and is less than that of all lengths beyond them.

Key definitions: `Proposal`, `Proposal.relevance`, `Proposal.rank`.
Key theorems: `relevanceOfLength_fits_iff`, `relevanceOfLength_lt_iff`.
-/
import CallChain.Chain.Json
import CallChain.Snippet

namespace CallChain

/-- The greatest integer of 32 bits. -/
def maxInt32 : Nat := 2147483647

/-- What a chain starts out with less than other proposals. -/
def chainMalus : Nat := 100

/-- The relevance of a chain of a length; a length beyond 32 bits counts as
one that leaves room for the malus. -/
def relevanceOfLength (length : Nat) : Int :=
  -((if length ≤ maxInt32 then length else maxInt32 - chainMalus : Nat) : Int) - chainMalus

theorem relevanceOfLength_of_le {n : Nat} (h : n ≤ maxInt32) :
    relevanceOfLength n = -(n : Int) - chainMalus := by
  rw [relevanceOfLength, if_pos h]

theorem relevanceOfLength_of_lt {n : Nat} (h : maxInt32 < n) :
    relevanceOfLength n = -(maxInt32 : Int) := by
  have hbeyond : ¬ n ≤ maxInt32 := Nat.not_le.2 h
  rw [relevanceOfLength, if_neg hbeyond]
  rfl

/-- The relevance is an integer of 32 bits but for the last lengths that are
such integers. -/
theorem relevanceOfLength_fits_iff {n : Nat} :
    (-(maxInt32 : Int) - 1 ≤ relevanceOfLength n ∧ relevanceOfLength n ≤ maxInt32) ↔
      n + chainMalus ≤ maxInt32 + 1 ∨ maxInt32 < n := by
  by_cases h : n ≤ maxInt32
  · rw [relevanceOfLength_of_le h]
    omega
  · have hbeyond : maxInt32 < n := Nat.not_le.1 h
    rw [relevanceOfLength_of_lt hbeyond]
    omega

/-- A longer chain is more relevant only if its length is beyond 32 bits, while
that of the other is not and would be with the malus added to it. -/
theorem relevanceOfLength_lt_iff {m n : Nat} (h : m < n) :
    relevanceOfLength m < relevanceOfLength n ↔
      maxInt32 < n ∧ m ≤ maxInt32 ∧ maxInt32 < m + chainMalus := by
  by_cases hn : n ≤ maxInt32
  · have hm : m ≤ maxInt32 := by omega
    rw [relevanceOfLength_of_le hn, relevanceOfLength_of_le hm]
    omega
  · have hbeyond : maxInt32 < n := Nat.not_le.1 hn
    rw [relevanceOfLength_of_lt hbeyond]
    by_cases hm : m ≤ maxInt32
    · rw [relevanceOfLength_of_le hm]
      omega
    · rw [relevanceOfLength_of_lt (Nat.not_le.1 hm)]
      omega

/-- A chain on offer. -/
structure Proposal where
  chain : Chain
  snippet : Snippet

namespace Proposal

/-- The proposal of a chain. -/
def ofChain (c : Chain) : Proposal := { chain := c, snippet := Snippet.ofChain c }

/-- How relevant the proposal is. -/
def relevance (p : Proposal) : Int := relevanceOfLength p.chain.length

/-- The names of the members used. -/
def names (p : Proposal) : List String := p.chain.links.map fun l => l.member.name

/-- The proposal on one line. -/
def line (p : Proposal) : String := p.snippet.title ++ " - " ++ p.snippet.description

/-- The proposals of chains, the most relevant first. -/
def rank (chains : List Chain) : List Proposal :=
  (chains.map ofChain).mergeSort fun p q => q.relevance ≤ p.relevance

/-- Ranking keeps all the proposals. -/
theorem rank_perm (chains : List Chain) : (rank chains).Perm (chains.map ofChain) :=
  List.mergeSort_perm _ _

/-- A proposal in JSON. -/
def toJson (p : Proposal) : Json :=
  .obj [
    ("chain", p.chain.toJson),
    ("template", .obj [
      ("title", .str p.snippet.title),
      ("body", .str p.snippet.body),
      ("description", .str p.snippet.description)])]

end Proposal

end CallChain
