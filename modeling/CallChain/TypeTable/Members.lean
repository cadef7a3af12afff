/-
# The members of a value or a type

The fields and methods that may be used from a site on a value of a type, or
on the type itself: those of the type and its supertypes, nearest first, of
several with the same slot the first. A method counts if its result has
members or is an array.

Key definitions: `MemberScope`, `TypeTable.visibleMembers`.
-/
import CallChain.TypeTable.Access

namespace CallChain

/-- What members are asked of. -/
inductive MemberScope where
  | value
  | type
  deriving DecidableEq

/-- Whether a member can be asked of a value, or of a type, and have a result
that is worth a link. -/
def MemberScope.offers (scope : MemberScope) (m : Member) : Bool :=
  m.isStatic == (scope == .type) &&
    match m.kind with
    | .field => true
    | .method => !m.type.isVoid && !m.type.isPrimitive
    | .constructor | .localVar => false

/-- The members of a list whose slot is not among those taken, of each slot
the first. -/
def Member.firstOfSlots (taken : List String) : List Member → List Member
  | [] => []
  | m :: ms =>
    if m.slot ∈ taken then firstOfSlots taken ms else m :: firstOfSlots (m.slot :: taken) ms

theorem Member.mem_of_mem_firstOfSlots {m : Member} : ∀ {taken : List String} {ms : List Member},
    m ∈ firstOfSlots taken ms → m ∈ ms
  | _, [], h => by cases h
  | taken, k :: ms, h => by
    rw [firstOfSlots] at h
    split at h
    · exact List.mem_cons_of_mem _ (mem_of_mem_firstOfSlots h)
    · rcases List.mem_cons.1 h with rfl | h
      · exact List.mem_cons_self
      · exact List.mem_cons_of_mem _ (mem_of_mem_firstOfSlots h)

theorem Member.slot_not_mem_of_mem_firstOfSlots {m : Member} :
    ∀ {taken : List String} {ms : List Member}, m ∈ firstOfSlots taken ms → m.slot ∉ taken
  | _, [], h => by cases h
  | taken, k :: ms, h => by
    rw [firstOfSlots] at h
    split at h
    · exact slot_not_mem_of_mem_firstOfSlots h
    · rename_i hk
      rcases List.mem_cons.1 h with rfl | h
      · exact hk
      · have hm := slot_not_mem_of_mem_firstOfSlots h
        rw [List.mem_cons, not_or] at hm
        exact hm.2

theorem Member.nodup_slots_firstOfSlots : ∀ (taken : List String) (ms : List Member),
    ((firstOfSlots taken ms).map slot).Nodup
  | _, [] => by simp [firstOfSlots]
  | taken, k :: ms => by
    rw [firstOfSlots]
    split
    · exact nodup_slots_firstOfSlots taken ms
    · rw [List.map_cons, List.nodup_cons]
      refine ⟨?_, nodup_slots_firstOfSlots _ ms⟩
      rw [List.mem_map]
      rintro ⟨m, hm, hslot⟩
      have hfree := slot_not_mem_of_mem_firstOfSlots hm
      rw [hslot] at hfree
      exact hfree List.mem_cons_self

namespace TypeTable

/-- The visible members of a type whose declarations are looked up by
`declared`. A lookup that fails for a supertype is passed over. -/
def membersBy (t : TypeTable) (declared : String → Except LookupError (List Member))
    (scope : MemberScope) (site : Site) (type : JavaType) : Except LookupError (List Member) :=
  match t.supertypes type with
  | [] => .error (.unresolvedType type.fullText)
  | root :: above => do
    let own ← declared root
    let inherited := above.flatMap fun name => (declared name).toOption.getD []
    .ok (Member.firstOfSlots []
      ((own ++ inherited).filter fun m => scope.offers m && t.isVisible site m))

/-- The visible members of a type are declared somewhere, and no slot is filled
twice. -/
theorem membersBy_eq_ok {t : TypeTable} {declared : String → Except LookupError (List Member)}
    {scope : MemberScope} {site : Site} {type : JavaType} {ms : List Member}
    (h : t.membersBy declared scope site type = .ok ms) :
    (ms.map Member.slot).Nodup ∧ ∀ m ∈ ms, ∃ name ds, declared name = .ok ds ∧ m ∈ ds := by
  unfold membersBy at h
  cases hsuper : t.supertypes type with
  | nil => simp [hsuper] at h
  | cons root above =>
    cases hroot : declared root with
    | error e => simp [hsuper, hroot, bind, Except.bind] at h
    | ok own =>
      simp only [hsuper, hroot, bind, Except.bind, Except.ok.injEq] at h
      subst h
      refine ⟨Member.nodup_slots_firstOfSlots _ _, fun m hm => ?_⟩
      have hmem := (List.mem_filter.1 (Member.mem_of_mem_firstOfSlots hm)).1
      rcases List.mem_append.1 hmem with hown | hinherited
      · exact ⟨root, own, hroot, hown⟩
      · obtain ⟨name, -, hm'⟩ := List.mem_flatMap.1 hinherited
        cases hname : declared name with
        | error e =>
          rw [hname] at hm'
          cases hm'
        | ok ds =>
          rw [hname] at hm'
          exact ⟨name, ds, hname, hm'⟩

/-- The visible members of a type. -/
def visibleMembers (t : TypeTable) (scope : MemberScope) (site : Site) (type : JavaType) :
    Except LookupError (List Member) :=
  t.membersBy t.declared scope site type

/-- The type of a member's value, if it is known. -/
def memberType (m : Member) : Except LookupError JavaType :=
  if m.type.elementType = .unresolved then .error (.unresolvedType m.key) else .ok m.type

end TypeTable

end CallChain
