/-
# What chains start with

The starts of a request are made for names in scope, or for members of what
stands before the place. Those that are reached through `this` are fields, as
only a field may be hidden by a local variable.

Key theorems: `Request.exists_link_of_mem_starts`, `Request.isMade_starts`,
`Request.kind_of_ofThis`, `Request.ofThis_eq_isHidden`.
-/
import CallChain.Completion.Request
import CallChain.Proofs.Search.Validity

namespace CallChain

variable {F : Facts} {r : Request} {l : Link}

theorem Facts.mem_links_iff (ofThis : Member → Bool) {ms : List Member} :
    l ∈ (ms.filterMap fun m => (F.link (ofThis m) m).toOption) ↔
      ∃ m ∈ ms, F.link (ofThis m) m = .ok l := by
  rw [List.mem_filterMap]
  refine exists_congr fun m => and_congr_right fun _ => ?_
  cases F.link (ofThis m) m with
  | ok k => simp [Except.toOption]
  | error e => simp [Except.toOption]

namespace Request

theorem kind_of_isHidden {m : Member} (h : r.isHidden m = true) : m.kind = .field := by
  simp only [isHidden, Bool.and_eq_true, beq_iff_eq] at h
  exact h.1

theorem exists_link_of_mem_memberStarts {scope : MemberScope} {type : JavaType}
    (h : l ∈ r.memberStarts F scope type) : ∃ m, F.link false m = .ok l := by
  unfold memberStarts at h
  split at h
  · obtain ⟨m, -, hlink⟩ := (Facts.mem_links_iff fun _ => false).1 h
    exact ⟨m, hlink⟩
  · cases h

/-- A start is the use of a member; if it is reached through `this`, of a
field. -/
theorem exists_link_of_mem_starts (h : l ∈ r.starts F) :
    ∃ m ofThis, F.link ofThis m = .ok l ∧ (ofThis = true → m.kind = .field) := by
  have hmember : (∃ m, F.link false m = .ok l) →
      ∃ m ofThis, F.link ofThis m = .ok l ∧ (ofThis = true → m.kind = .field) :=
    fun ⟨m, hlink⟩ => ⟨m, false, hlink, fun h => by cases h⟩
  unfold starts at h
  split at h
  case h_1 =>
    obtain ⟨m, -, hlink⟩ := (Facts.mem_links_iff r.isHidden).1 h
    exact ⟨m, r.isHidden m, hlink, kind_of_isHidden⟩
  case h_6 => cases h
  all_goals exact hmember (exists_link_of_mem_memberStarts h)

/-- The starts of a request are made for members. -/
theorem isMade_starts (F : Facts) (r : Request) : ∀ l ∈ r.starts F, l.IsMade := by
  intro l hl
  obtain ⟨m, ofThis, hlink, -⟩ := exists_link_of_mem_starts hl
  obtain ⟨type, -, hmake⟩ := Facts.link_eq_ok_iff.1 hlink
  exact ⟨m, type, ofThis, hmake⟩

/-- Only a field is reached through `this`. -/
theorem kind_of_ofThis (h : l ∈ r.starts F) (ofThis : l.ofThis = true) : l.kind = .field := by
  obtain ⟨m, this, hlink, hfield⟩ := exists_link_of_mem_starts h
  obtain ⟨type, -, hmake⟩ := Facts.link_eq_ok_iff.1 hlink
  obtain ⟨kind, hkind, -, rfl⟩ := Link.make_eq_ok_iff.1 hmake
  have hthis : this = true := ofThis
  rw [hfield hthis] at hkind
  exact (Option.some.inj hkind).symm

/-- Where a name is being typed, what is hidden is reached through `this`, and
nothing else. -/
theorem ofThis_eq_isHidden (place : r.place = .simpleName) (h : l ∈ r.starts F) :
    l.ofThis = r.isHidden l.member := by
  rw [starts, place] at h
  obtain ⟨m, -, hlink⟩ := (Facts.mem_links_iff r.isHidden).1 h
  obtain ⟨type, -, hmake⟩ := Facts.link_eq_ok_iff.1 hlink
  obtain ⟨kind, -, -, rfl⟩ := Link.make_eq_ok_iff.1 hmake
  rfl

end Request

theorem Facts.Admits.isMade {L : Limits} {starts ls : List Link} (h : F.Admits L starts ls)
    (made : ∀ l ∈ starts, l.IsMade) : ∀ l ∈ ls, l.IsMade :=
  h.forall_links made fun _ _ offers => offers.isMade

end CallChain
