/-
# What a completion proposes

A request is refused for its settings only. Otherwise it proposes nothing, or
the chains that a search for the expected type finds from the starts of the
request, ranked; a search that finds nothing need not be started. What holds of
every search therefore holds of the proposals.

Key theorems: `completeBy_error_iff`, `proposals_of_completeBy`.
-/
import CallChain.Completion.Complete
import CallChain.Proofs.Completion.Ranking
import CallChain.Proofs.Search.Truncation

namespace CallChain

variable {known : String → Option Facts} {I : Interruptions} {settings : Settings} {r : Request}

/-- A request is refused for the first fault of its settings. -/
theorem completeBy_error_iff {e : SettingsError} :
    completeBy known I settings r = .error e ↔ settings.fault? = some e := by
  unfold completeBy Settings.limits
  cases settings.fault? with
  | some d => simp [bind, Except.bind]
  | none => cases known r.invokingType <;> simp [bind, Except.bind]

theorem proposals_completeWithin {F : Facts} {L : Limits} {type : JavaType}
    (h : r.expected = some type) : (completeWithin F L I r).proposals =
      Proposal.rank (F.search L I (r.starts F) [type]).chains := by
  simp only [completeWithin, h, Facts.supervisedSearch_eq]

theorem status_completeWithin {F : Facts} {L : Limits} {type : JavaType}
    (h : r.expected = some type) : (completeWithin F L I r).status =
      (F.search L I (r.starts F) [type]).status := by
  simp only [completeWithin, h, Facts.supervisedSearch_eq]

/-- The proposals of a request that is not refused: none, or those of a
search. -/
theorem proposals_of_completeBy {c : Completion} (h : completeBy known I settings r = .ok c) :
    ∃ L, settings.limits = .ok L ∧ (c.proposals = [] ∨
      ∃ (F : Facts) (type : JavaType), r.expected = some type ∧
        c.proposals = Proposal.rank (F.search L I (r.starts F) [type]).chains) := by
  unfold completeBy at h
  cases hL : settings.limits with
  | error e => simp [hL, bind, Except.bind] at h
  | ok L =>
    refine ⟨L, rfl, ?_⟩
    cases hF : known r.invokingType with
    | none =>
      simp only [hL, hF, bind, Except.bind, Except.ok.injEq] at h
      exact .inl (h ▸ rfl)
    | some F =>
      simp only [hL, hF, bind, Except.bind, Except.ok.injEq] at h
      subst h
      cases htype : r.expected with
      | none => exact .inl (by simp only [completeWithin, htype])
      | some type => exact .inr ⟨F, type, rfl, proposals_completeWithin htype⟩

/-- A value of a type is wanted where a local variable hides a field. -/
def Circle.request (type : JavaType) : Request where
  invokingType := "S"
  place := .simpleName
  locals := [.localVar "x" (.named "A")]
  fields := [.field "S" "x" (.named "A")]
  expected := some type

end CallChain
