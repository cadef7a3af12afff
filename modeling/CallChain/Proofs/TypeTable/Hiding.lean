/-
# What hides a member of a supertype

A query keeps the first member of each slot, but only of the members that
count: what does not count is passed over before a slot is filled, and hides
nothing. So a member that counts is found exactly if none that counts has its
slot before it (`FirstDeclared.mem_iff`). A nearer member of the same kind and
slot need not hide it: it may be static where the query is for values, or the
other way round, be a method without a result to go on from, or be one that
may not be used from the site.

Key definitions: `TypeTable.Hidden`, `TypeTable.PassedOver`.
Key theorems: `TypeTable.FirstDeclared.mem_iff`, `TypeTable.passedOver_iff`,
`TypeTable.visibleMembers_unhidden`.
-/
import CallChain.Proofs.TypeTable.VisibleMembers
import Mathlib.Data.List.Nodup

namespace CallChain

namespace TypeTable

variable {t : TypeTable} {scope : MemberScope} {site : Site} {type : JavaType}

theorem Stored.unique {p : Position} {m k : Member} (hm : t.Stored type p m)
    (hk : t.Stored type p k) : m = k := by
  obtain ⟨d, hd, hname, hm⟩ := hm
  obtain ⟨d', hd', hname', hk⟩ := hk
  have hsame : d.name = d'.name := Option.some.inj (hname.symm.trans hname')
  have hmembers : d.members = d'.members := by
    rw [← declaredIn_of_mem hd, ← declaredIn_of_mem hd', hsame]
  rw [hmembers, hk] at hm
  exact (Option.some.inj hm).symm

/-- A member is hidden from a query at the position where it is stored: one that
counts is stored before it with its slot. -/
def Hidden (t : TypeTable) (scope : MemberScope) (site : Site) (type : JavaType) (p : Position)
    (m : Member) : Prop :=
  ∃ q k, t.Stored type q k ∧ t.Eligible scope site k ∧ k.slot = m.slot ∧ q.Before p

/-- The first declarations that count are those that count and are not hidden. -/
theorem FirstDeclared.mem_iff {found : List (Position × Member)}
    (h : t.FirstDeclared scope site type found) {p : Position} {m : Member} :
    (p, m) ∈ found ↔
      t.Stored type p m ∧ t.Eligible scope site m ∧ ¬ t.Hidden scope site type p m := by
  constructor
  · intro hm
    refine ⟨h.stored _ hm, h.eligible _ hm, ?_⟩
    rintro ⟨q, k, hk, hcounts, hslot, hbefore⟩
    obtain ⟨e, he, hslot', hat⟩ := h.first q k hk hcounts
    -- The slot of the member is filled once, so the member would stand before itself.
    obtain rfl : e = (p, m) := List.inj_on_of_nodup_map h.slots he hm (hslot'.trans hslot)
    rcases hat with rfl | hat
    · exact Position.Before.irrefl _ hbefore
    · exact Position.Before.irrefl _ (hat.trans hbefore)
  · rintro ⟨hm, hcounts, hfree⟩
    obtain ⟨⟨q, k⟩, he, hslot, rfl | hat⟩ := h.first p m hm hcounts
    · obtain rfl : k = m := (h.stored _ he).unique hm
      exact he
    · exact absurd ⟨q, k, h.stored _ he, h.eligible _ he, hslot, hat⟩ hfree

/-- Why a query passes over a field or a method: it belongs to types and values
are asked for or the other way round, it is a method without a result to go on
from, or it may not be used from the site. -/
inductive PassedOver (t : TypeTable) (scope : MemberScope) (site : Site) (m : Member) : Prop
  | scope (other : ¬ (m.isStatic = true ↔ scope = .type))
  | result (method : m.kind = .method) (none : m.type.isVoid = true ∨ m.type.isPrimitive = true)
  | access (denied : t.isVisible site m = false)

/-- A field or a method is passed over exactly if it does not count. -/
theorem passedOver_iff {m : Member} (hkind : m.kind = .field ∨ m.kind = .method) :
    t.PassedOver scope site m ↔ ¬ t.Eligible scope site m := by
  constructor
  · intro h hcounts
    cases h with
    | scope other => exact other hcounts.static_iff
    | result method none =>
      rcases hcounts.kind with hfield | ⟨-, hvoid, hprimitive⟩
      · rw [method] at hfield
        cases hfield
      · simp [hvoid, hprimitive] at none
    | access denied => simp [hcounts.visible] at denied
  · intro h
    by_cases hstatic : m.isStatic = true ↔ scope = .type
    case neg => exact .scope hstatic
    cases hvisible : t.isVisible site m with
    | false => exact .access hvisible
    | true =>
      rcases hkind with hfield | hmethod
      · exact absurd ⟨hstatic, .inl hfield, hvisible⟩ h
      · refine .result hmethod ?_
        by_contra hresult
        rw [not_or, Bool.not_eq_true, Bool.not_eq_true] at hresult
        exact h ⟨hstatic, .inr ⟨hmethod, hresult⟩, hvisible⟩

/-- What is stored before a member that counts and is not hidden, with its kind
and slot, is passed over. -/
theorem passedOver_of_not_hidden {p q : Position} {m k : Member}
    (hcounts : t.Eligible scope site m) (hfree : ¬ t.Hidden scope site type p m)
    (hk : t.Stored type q k) (hbefore : q.Before p) (hkind : k.kind = m.kind)
    (hslot : k.slot = m.slot) : t.PassedOver scope site k := by
  have hkinds : k.kind = .field ∨ k.kind = .method := by
    rw [hkind]
    exact hcounts.kind.imp_right (·.1)
  rw [passedOver_iff hkinds]
  exact fun h => hfree ⟨q, k, hk, h, hslot, hbefore⟩

/-- **What counts hides, what does not is passed over.** What a query finds are
the members that count and have none that counts before them with their slot.
A member of the same kind and slot in a nearer type is passed over: it is static
where values are asked for or the other way round, a method without a result to
go on from, or may not be used from the site. -/
theorem visibleMembers_unhidden (t : TypeTable) (scope : MemberScope) (site : Site)
    (type : JavaType) (ms : List Member) (answered : t.visibleMembers scope site type = .ok ms) :
    ∃ found : List (Position × Member), found.map (·.2) = ms ∧
      (∀ p m, (p, m) ∈ found ↔
        t.Stored type p m ∧ t.Eligible scope site m ∧ ¬ t.Hidden scope site type p m) ∧
      ∀ p m, (p, m) ∈ found → ∀ q k, t.Stored type q k → q.rank < p.rank → k.kind = m.kind →
        k.slot = m.slot → t.PassedOver scope site k := by
  obtain ⟨found, hmap, hfirst⟩ := firstDeclared_of_visibleMembers answered
  refine ⟨found, hmap, fun p m => hfirst.mem_iff, ?_⟩
  intro p m hm q k hk hnearer hkind hslot
  obtain ⟨-, hcounts, hfree⟩ := hfirst.mem_iff.1 hm
  exact passedOver_of_not_hidden hcounts hfree hk (.inl hnearer) hkind hslot

end TypeTable

namespace Veil

def inner : Member := { Member.field "B" "f" (.named "T") with modifiers := ["private"] }

def outer : Member := .field "A" "f" (.named "T")

/-- A class declares the public field of its parent again, as a private one. -/
def table : TypeTable := .ofDecls [
  { name := "A", members := [outer] },
  { name := "B", superclass := some "A", members := [inner] }]

theorem stored_inner : table.Stored (.named "B") ⟨0, 0⟩ inner := by
  refine ⟨{ name := "B", superclass := some "A", members := [inner] }, ?_, ?_, rfl⟩ <;> decide

theorem stored_outer : table.Stored (.named "B") ⟨1, 0⟩ outer := by
  refine ⟨{ name := "A", members := [outer] }, ?_, ?_, rfl⟩ <;> decide

/-- From elsewhere the private field is passed over, and that of the parent is
found. -/
theorem outer_unhidden :
    let site := Site.named "C"
    table.visibleMembers .value site (.named "B") = .ok [outer] ∧
    ∃ found : List (Position × Member), found.map (·.2) = [outer] ∧
      (∀ p m, (p, m) ∈ found ↔ table.Stored (.named "B") p m ∧ table.Eligible .value site m ∧
        ¬ table.Hidden .value site (.named "B") p m) ∧
      ∀ p m, (p, m) ∈ found → ∀ q k, table.Stored (.named "B") q k → q.rank < p.rank →
        k.kind = m.kind → k.slot = m.slot → table.PassedOver .value site k := by
  intro site
  have hquery : table.visibleMembers .value site (.named "B") = .ok [outer] := rfl
  exact ⟨hquery, TypeTable.visibleMembers_unhidden table .value site (.named "B") _ hquery⟩

/-- The private field is of the same kind and slot and in a nearer type, and does
not hide the other. -/
theorem inner_not_hiding :
    ¬ ∀ (t : TypeTable) (scope : MemberScope) (site : Site) (type : JavaType) (ms : List Member),
      t.visibleMembers scope site type = .ok ms → ∀ m ∈ ms, ∀ p q k,
        t.Stored type p m → t.Stored type q k → q.rank < p.rank → k.kind = m.kind →
        k.slot ≠ m.slot := by
  intro h
  have hquery : table.visibleMembers .value (.named "C") (.named "B") = .ok [outer] := rfl
  exact h table .value (.named "C") (.named "B") _ hquery outer List.mem_cons_self ⟨1, 0⟩ ⟨0, 0⟩
    inner stored_outer stored_inner Nat.one_pos rfl (by decide)

end Veil

end CallChain
