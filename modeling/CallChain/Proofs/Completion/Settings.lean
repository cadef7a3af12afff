/-
# Completions keep to the settings

The settings of a user hold from end to end. The names to leave out become what
signatures start with, and keys and signatures are told by how they start: the
key of a field or a method starts with the signature of the type that declares
it, and the signature of a type with what was made of its name. A completion
therefore shows nothing of the types left out, and keeps to the number and the
lengths asked for, however its search ends.

Key definition: `Completion.KeepsTo`.
Key theorem: `Completion.keeps_to_settings`.
-/
import CallChain.Proofs.Completion.Proposals
import CallChain.Proofs.Completion.Starts

namespace CallChain

variable {s : Settings} {L : Limits}

/-! ### Names left out -/

theorem Settings.Ignores.trim_eq {name : String} (h : s.Ignores name) : Text.trim name = name := by
  obtain ⟨-, piece, -, rfl⟩ := h
  exact Text.trim_trim piece

/-- What is left out starts as the signature of a type left out. -/
theorem Settings.excludes_iff (limits : s.limits = .ok L) {key : String} :
    L.excludes key = true ↔
      ∃ name, s.Ignores name ∧ (JavaName.signatureStart name).toList <+: key.toList := by
  obtain ⟨-, rfl⟩ := Settings.limits_eq_ok_iff.1 limits
  have hne : ∀ name, JavaName.signatureStart name ≠ "" := by simp [JavaName.signatureStart]
  simp only [Limits.excludes, ignoredSignatures, List.any_map, List.any_eq_true,
    Function.comp_apply, Bool.and_eq_true, bne_iff_ne, ne_eq, hne, not_false_eq_true, true_and,
    Text.startsWith_iff, mem_ignoredNames_iff]

theorem Settings.Ignores.not_allows {name key : String} (h : s.Ignores name)
    (limits : s.limits = .ok L) (start : (JavaName.signature name).toList <+: key.toList) :
    ¬ L.Allows key := by
  have hexcluded : L.excludes key = true :=
    (Settings.excludes_iff limits).2 ⟨name, h, (JavaName.signatureStart_prefix h.trim_eq).trans start⟩
  rw [← Limits.excludes_eq_false_iff, hexcluded]
  exact Bool.noConfusion

theorem Link.not_ignores_owner {l : Link} (made : l.IsMade) (allowed : L.Allows l.member.key)
    (limits : s.limits = .ok L) (kind : l.kind ≠ .localVar) {owner : String}
    (declared : l.member.owner = some owner) : ¬ s.Ignores owner := by
  intro hignores
  have hkind : l.member.kind ≠ .localVar := by
    intro h
    have hmade := made.kind_eq
    rw [h] at hmade
    exact kind (Option.some.inj hmade).symm
  exact hignores.not_allows limits (Member.signature_prefix_key declared hkind) allowed

/-- A type that is allowed is not left out, whatever its arguments. -/
theorem JavaType.not_ignores_erasure {type : JavaType} (allowed : L.Allows type.signature)
    (limits : s.limits = .ok L) {name : String} (erasure : type.erasure? = some name) :
    ¬ s.Ignores name := by
  intro hignores
  rw [JavaType.signature_of_erasure? erasure] at allowed
  exact hignores.not_allows limits List.prefix_rfl allowed

/-! ### Completions -/

/-- A completion keeps to settings: it has no more proposals than asked for,
each of a length asked for, with no field or method of a type left out. -/
structure Completion.KeepsTo (s : Settings) (c : Completion) : Prop where
  few : c.proposals.length ≤ s.maxChains
  minLength_le : ∀ p ∈ c.proposals, s.minLength ≤ p.chain.length
  length_le : ∀ p ∈ c.proposals, p.chain.length ≤ s.maxLength
  owners : ∀ p ∈ c.proposals, ∀ l ∈ p.chain.links, l.kind = .field ∨ l.kind = .method →
    ∀ owner, l.member.owner = some owner → ¬ s.Ignores owner

theorem Completion.keepsTo_of_nil {c : Completion} (h : c.proposals = []) : c.KeepsTo s where
  few := by simp [h]
  minLength_le := by simp [h]
  length_le := by simp [h]
  owners := by simp [h]

/-- The proposals for what a search within the limits of settings finds. -/
theorem Completion.keepsTo_of_search {F : Facts} {I : Interruptions} {r : Request} {type : JavaType}
    {c : Completion} (limits : s.limits = .ok L)
    (h : c.proposals = Proposal.rank (F.search L I (r.starts F) [type]).chains) :
    c.KeepsTo s := by
  obtain ⟨hfault, hL⟩ := Settings.limits_eq_ok_iff.1 limits
  obtain ⟨-, hmin, hmax, -⟩ := Settings.fault?_eq_none_iff.1 hfault
  have hvalid : ∀ p ∈ c.proposals, p.chain.Valid F L (r.starts F) [type] := by
    intro p hp
    rw [h] at hp
    exact Facts.valid_of_mem_search (Proposal.chain_mem_of_mem_rank hp)
  constructor
  case few =>
    have hlength := F.length_search_le L I (r.starts F) [type]
    rw [h, (Proposal.rank_perm _).length_eq, List.length_map]
    rwa [hL] at hlength ⊢
  case minLength_le =>
    intro p hp
    have hle := (hvalid p hp).le_length
    rwa [hL] at hle
  case length_le =>
    intro p hp
    have hle := (hvalid p hp).length_le
    have hlimit : L.maxLength = s.maxLength := by rw [hL]
    omega
  case owners =>
    intro p hp l hl hkind owner declared
    have hadmitted := (hvalid p hp).admitted
    have hmade := hadmitted.isMade (r.isMade_starts F) l hl
    refine Link.not_ignores_owner hmade (hadmitted.allowed l hl) limits ?_ declared
    rcases hkind with hkind | hkind <;> simp [hkind]

/-- **Completions keep to the settings.** Settings are refused exactly if a
count is zero or the lengths cross. If they are not, then whatever is known and
whatever interrupts the search, the completion keeps to them; and if the element
of the expected type is of a class or interface left out, it proposes
nothing. -/
theorem Completion.keeps_to_settings (known : String → Option Facts) (I : Interruptions)
    (s : Settings) (r : Request) :
    ((∃ e, completeBy known I s r = .error e) ↔
      s.maxChains = 0 ∨ s.minLength = 0 ∨ s.maxLength < s.minLength ∨ s.timeoutSecs = 0) ∧
    ∀ c, completeBy known I s r = .ok c → c.KeepsTo s ∧
      ∀ type name, r.expected = some type → type.elementType.erasure? = some name →
        s.Ignores name → c.proposals = [] := by
  constructor
  · simp only [completeBy_error_iff, ← Option.isSome_iff_exists]
    rw [← Option.ne_none_iff_isSome, ne_eq, Settings.fault?_eq_none_iff]
    omega
  · intro c hc
    obtain ⟨L, hlimits, hnil | ⟨F, expected, hexpected, hproposals⟩⟩ := proposals_of_completeBy hc
    · exact ⟨keepsTo_of_nil hnil, fun _ _ _ _ _ => hnil⟩
    · refine ⟨keepsTo_of_search hlimits hproposals, ?_⟩
      intro type name htype herasure hignores
      obtain rfl : type = expected := Option.some.inj (htype.symm.trans hexpected)
      rw [List.eq_nil_iff_forall_not_mem]
      intro p hp
      rw [hproposals] at hp
      obtain ⟨goal, hgoal, hallows, -⟩ :=
        (Facts.valid_of_mem_search (Proposal.chain_mem_of_mem_rank hp)).ends
      rw [List.mem_singleton.1 hgoal] at hallows
      exact JavaType.not_ignores_erasure hallows hlimits herasure hignores

/-- With `B` left out, no value of type `A` is reached through the field that a
`B` has, and no value of type `B` is looked for. -/
theorem Circle.settings_circle :
    let s : Settings := { minLength := 1, ignoredTypes := " B | " }
    s.Ignores "B" ∧
    (∃ c, completeBy (fun _ => some facts) .none s (request (.named "A")) = .ok c ∧ c.KeepsTo s ∧
      c.proposals.map (·.chain.printed) = ["x", "this.x"]) ∧
    (∃ c, completeBy (fun _ => some facts) .none s (request (.array (.named "B") 1)) = .ok c ∧
      c.proposals = []) ∧
    ∃ e, completeBy (fun _ => some facts) .none { s with maxLength := 0 } (request (.named "A")) =
      .error e := by
  intro s
  have hignores : s.Ignores "B" := ⟨by decide, " B ", by decide, by decide⟩
  obtain ⟨-, hA⟩ := Completion.keeps_to_settings (fun _ => some facts) .none s (request (.named "A"))
  obtain ⟨-, hB⟩ := Completion.keeps_to_settings (fun _ => some facts) .none s
    (request (.array (.named "B") 1))
  obtain ⟨hrefused, -⟩ := Completion.keeps_to_settings (fun _ => some facts) .none
    { s with maxLength := 0 } (request (.named "A"))
  refine ⟨hignores, ⟨_, rfl, (hA _ rfl).1, ?_⟩, ⟨_, rfl, (hB _ rfl).2 _ _ rfl rfl hignores⟩,
    hrefused.2 (by decide)⟩
  rw [proposals_completeWithin rfl, Proposal.rank_of_pairwise (by decide) (by decide)]
  decide

end CallChain
