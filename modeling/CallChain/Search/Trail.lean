/-
# Chains under construction

A trail is a chain that a search is still extending: its last link and those
before it, latest first, so that extensions share what they have in common.

Key definitions: `Trail`, `Trail.links`, `Trail.uses`, `Trail.extend`,
`Trail.extensions`.
-/
import CallChain.Chain.Basic

namespace CallChain

/-- A row of at least one link: the last one, and those before it, latest
first. -/
structure Trail where
  tail : Link
  before : List Link := []

namespace Trail

/-- The links in their order. -/
def links (t : Trail) : List Link := t.before.reverse ++ [t.tail]

/-- How many links the trail has. -/
def length (t : Trail) : Nat := t.before.length + 1

/-- The trail with one more link. -/
def extend (t : Trail) (l : Link) : Trail := { tail := l, before := t.tail :: t.before }

/-- Whether a link of the trail uses the same member as `l`. -/
def uses (t : Trail) (l : Link) : Bool :=
  t.tail.sameMember l || t.before.any (·.sameMember l)

/-- The trail with each of the links that it does not use yet. -/
def extensions (t : Trail) (links : List Link) : List Trail :=
  (links.filter fun l => !t.uses l).map t.extend

/-- The chain of the trail's links. -/
def chain (t : Trail) (keptDims : Nat) : Chain := { links := t.links, keptDims }

@[simp]
theorem links_extend (t : Trail) (l : Link) : (t.extend l).links = t.links ++ [l] := by
  simp [links, extend]

theorem length_links (t : Trail) : t.links.length = t.length := by simp [links, length]

@[simp]
theorem length_extend (t : Trail) (l : Link) : (t.extend l).length = t.length + 1 := by
  simp [length, extend]

theorem length_of_mem_extensions {t u : Trail} {links : List Link}
    (h : u ∈ t.extensions links) : u.length = t.length + 1 := by
  obtain ⟨l, _, rfl⟩ := List.mem_map.1 h
  exact length_extend t l

/-- A trail uses a link's member exactly when one of its links has the
link's key. -/
theorem uses_iff {t : Trail} {l : Link} :
    t.uses l = true ↔ l.key ∈ t.links.map (·.key) := by
  simp only [uses, links, Link.sameMember, Bool.or_eq_true, beq_iff_eq, List.any_eq_true,
    List.map_append, List.map_reverse, List.mem_append, List.mem_reverse, List.mem_map,
    List.map_cons, List.map_nil, List.mem_singleton]
  constructor
  · rintro (h | ⟨k, hk, h⟩)
    · exact .inr h.symm
    · exact .inl ⟨k, hk, h⟩
  · rintro (⟨k, hk, h⟩ | h)
    · exact .inr ⟨k, hk, h⟩
    · exact .inl h.symm

end Trail

end CallChain
