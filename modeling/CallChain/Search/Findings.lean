/-
# The chains found

The chains that a search has found, without two that look the same to a
reader: of several with one text the first is kept.

Key definitions: `Findings`, `Findings.isNew`, `Findings.push`,
`Findings.toList`.
-/
import CallChain.Chain.Basic

namespace CallChain

/-- The chains found and their texts, the latest first. -/
structure Findings where
  latest : List Chain
  printed : List String
  printed_eq : printed = latest.map Chain.printed

namespace Findings

/-- No chains. -/
def empty : Findings := { latest := [], printed := [], printed_eq := rfl }

/-- The chains in the order in which they were found. -/
def toList (f : Findings) : List Chain := f.latest.reverse

/-- How many chains were found. -/
def size (f : Findings) : Nat := f.latest.length

/-- Whether no chain found looks like this one. -/
def isNew (f : Findings) (c : Chain) : Bool := !f.printed.contains c.printed

/-- The findings with a chain, if it is new. -/
def push (f : Findings) (c : Chain) : Findings :=
  if f.isNew c then {
    latest := c :: f.latest
    printed := c.printed :: f.printed
    printed_eq := by rw [List.map_cons, f.printed_eq] }
  else f

@[simp]
theorem toList_empty : empty.toList = [] := rfl

theorem length_toList (f : Findings) : f.toList.length = f.size := by simp [toList, size]

theorem map_printed_toList (f : Findings) : f.toList.map Chain.printed = f.printed.reverse := by
  rw [toList, List.map_reverse, f.printed_eq]

/-- A chain is new if nothing that was found is printed as it. -/
theorem isNew_iff {f : Findings} {c : Chain} : f.isNew c = true ↔ c.printed ∉ f.printed := by
  simp [isNew]

theorem isNew_eq_false_iff {f : Findings} {c : Chain} :
    f.isNew c = false ↔ c.printed ∈ f.printed := by
  simp [isNew]

theorem toList_push_of_isNew {f : Findings} {c : Chain} (h : f.isNew c = true) :
    (f.push c).toList = f.toList ++ [c] := by
  simp [push, toList, h]

theorem push_of_not_isNew {f : Findings} {c : Chain} (h : f.isNew c = false) : f.push c = f := by
  simp [push, h]

theorem printed_push_of_isNew {f : Findings} {c : Chain} (h : f.isNew c = true) :
    (f.push c).printed = c.printed :: f.printed := by
  simp [push, h]

theorem mem_printed_push_iff {f : Findings} {c : Chain} {text : String} :
    text ∈ (f.push c).printed ↔ text ∈ f.printed ∨ text = c.printed := by
  cases hn : f.isNew c with
  | true => rw [printed_push_of_isNew hn, List.mem_cons, or_comm]
  | false =>
    rw [push_of_not_isNew hn]
    exact ⟨.inl, fun h => h.elim id fun h => h ▸ isNew_eq_false_iff.1 hn⟩

theorem size_push_le (f : Findings) (c : Chain) : (f.push c).size ≤ f.size + 1 := by
  unfold push
  split
  · exact Nat.le_refl _
  · exact Nat.le_succ _

theorem nodup_printed_push {f : Findings} (h : f.printed.Nodup) (c : Chain) :
    (f.push c).printed.Nodup := by
  cases hn : f.isNew c with
  | true =>
    rw [printed_push_of_isNew hn]
    exact List.nodup_cons.2 ⟨isNew_iff.1 hn, h⟩
  | false => rwa [push_of_not_isNew hn]

theorem nodup_map_printed_toList {f : Findings} (h : f.printed.Nodup) :
    (f.toList.map Chain.printed).Nodup := by
  rw [map_printed_toList, List.Nodup, List.pairwise_reverse]
  exact h.imp Ne.symm

theorem toList_prefix_push (f : Findings) (c : Chain) : f.toList <+: (f.push c).toList := by
  cases h : f.isNew c with
  | true =>
    rw [toList_push_of_isNew h]
    exact List.prefix_append _ _
  | false => exact (push_of_not_isNew h).symm ▸ List.prefix_rfl

end Findings

end CallChain
