/-
# The links that may follow

What may follow a link hangs only on the element type of its value: the
members of such a value that are not left out, that have a type, and whose
value can be worked with. A memo keeps what was worked out; each entry is
what the facts say, so that looking it up changes no answer
(`Memo.eq_of_get?`). A memo that keeps nothing makes every lookup anew.

Key definitions: `Facts.expansion`, `Memo`, `Memo.forgetful`.
-/
import CallChain.Facts
import CallChain.Limits.Basic

namespace CallChain

/-- The link to a member of a value, if it may follow another link. -/
def Facts.follower? (F : Facts) (L : Limits) (m : Member) : Option Link :=
  if L.excludes m.key then none
  else
    match F.link false m with
    | .ok l => if l.isLeaf then none else some l
    | .error _ => none

/-- The links that may follow one whose value has the given element type. -/
def Facts.expansion (F : Facts) (L : Limits) (type : JavaType) : List Link :=
  match F.members .value type with
  | .ok ms => ms.filterMap (F.follower? L)
  | .error _ => []

theorem Facts.length_expansion_le {F : Facts} {L : Limits} {type : JavaType} {n : Nat}
    (few : ∀ ms, F.members .value type = .ok ms → ms.length ≤ n) :
    (F.expansion L type).length ≤ n := by
  unfold expansion
  cases hms : F.members .value type with
  | ok ms => exact Nat.le_trans (List.length_filterMap_le _ _) (few ms hms)
  | error e => exact Nat.zero_le n

/-- Expansions that were worked out, unless nothing is kept. -/
structure Memo (F : Facts) (L : Limits) where
  keeps : Bool
  entries : List (JavaType × List Link)
  sound : ∀ e ∈ entries, e.2 = F.expansion L e.1

namespace Memo

variable {F : Facts} {L : Limits}

/-- A memo without entries, which keeps those to come or does not. -/
def blank (keeps : Bool) : Memo F L := { keeps, entries := [], sound := by simp }

/-- The memo of a search that has not looked anything up. -/
def empty : Memo F L := blank true

/-- The memo that keeps nothing. -/
def forgetful : Memo F L := blank false

/-- The expansion kept for a type. -/
def get? (m : Memo F L) (type : JavaType) : Option (List Link) :=
  (m.entries.find? fun e => e.1 == type).map Prod.snd

/-- The memo with the expansion of one more type, if it keeps any. -/
def add (m : Memo F L) (type : JavaType) (links : List Link) (h : links = F.expansion L type) :
    Memo F L :=
  if m.keeps then {
    keeps := true
    entries := (type, links) :: m.entries
    sound := by
      intro e he
      rcases List.mem_cons.1 he with rfl | he
      · exact h
      · exact m.sound e he }
  else m

/-- A kept expansion is what the facts say. -/
theorem eq_of_get? {m : Memo F L} {type : JavaType} {ls : List Link} (h : m.get? type = some ls) :
    ls = F.expansion L type := by
  obtain ⟨e, he, rfl⟩ := Option.map_eq_some_iff.1 h
  have := List.find?_some he
  rw [m.sound e (List.mem_of_find?_eq_some he)]
  simp only [beq_iff_eq] at this
  rw [this]

theorem add_forgetful (type : JavaType) (links : List Link) (h : links = F.expansion L type) :
    (forgetful : Memo F L).add type links h = forgetful := rfl

theorem get?_forgetful (type : JavaType) : (forgetful : Memo F L).get? type = none := rfl

end Memo

end CallChain
