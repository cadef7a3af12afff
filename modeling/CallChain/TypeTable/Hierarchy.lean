/-
# The supertypes of a type

A type with everything above it, nearest first: round by round, each round
the types that those of the round before name as superclass or interface,
without those that came before. A round that finds a declared type finds one
that no round found before, so there are at most as many such rounds as
declarations, and one more.

Key definitions: `TypeTable.parents`, `TypeTable.supertypes`.
-/
import CallChain.TypeTable.Basic

namespace CallChain.TypeTable

/-- What a type names above it: its superclass, then its interfaces. -/
def parents (t : TypeTable) (name : String) : List String :=
  (t.superclass? name).toList ++ t.interfaces name

/-- The names of a list that are not among those seen, each once. -/
def unseen (seen : List String) : List String → List String
  | [] => []
  | n :: ns => if n ∈ seen then unseen seen ns else n :: unseen (n :: seen) ns

/-- The names seen, and those of a round and of up to `rounds - 1` rounds
after it. -/
def climb (t : TypeTable) : Nat → List String → List String → List String
  | 0, seen, _ => seen
  | rounds + 1, seen, round =>
    match unseen seen round with
    | [] => seen
    | n :: ns => climb t rounds (seen ++ n :: ns) ((n :: ns).flatMap t.parents)

/-- The names of a type and its supertypes. Dimensions and arguments do not
count; a type without a full name has none. -/
def supertypes (t : TypeTable) (type : JavaType) : List String :=
  match type.elementType.erasure? with
  | none => []
  | some name => t.climb (t.size + 1) [] [name]

theorem mem_unseen {seen ns : List String} {n : String} :
    n ∈ unseen seen ns ↔ n ∈ ns ∧ n ∉ seen := by
  induction ns generalizing seen with
  | nil => simp [unseen]
  | cons m ms ih =>
    rw [unseen]
    split
    · rename_i hm
      rw [ih, List.mem_cons]
      constructor
      · exact fun ⟨h, hs⟩ => ⟨.inr h, hs⟩
      · rintro ⟨rfl | h, hs⟩
        · exact absurd hm hs
        · exact ⟨h, hs⟩
    · rename_i hm
      rw [List.mem_cons, ih, List.mem_cons, List.mem_cons, not_or]
      constructor
      · rintro (rfl | ⟨h, _, hs⟩)
        · exact ⟨.inl rfl, hm⟩
        · exact ⟨.inr h, hs⟩
      · rintro ⟨rfl | h, hs⟩
        · exact .inl rfl
        · by_cases he : n = m
          · exact .inl he
          · exact .inr ⟨h, he, hs⟩

theorem unseen_congr {seen seen' : List String} (ns : List String)
    (h : ∀ n, n ∈ seen ↔ n ∈ seen') : unseen seen ns = unseen seen' ns := by
  induction ns generalizing seen seen' with
  | nil => rfl
  | cons m ms ih =>
    have hnext : unseen (m :: seen) ms = unseen (m :: seen') ms := by
      apply ih
      intro n
      rw [List.mem_cons, List.mem_cons, h n]
    simp only [unseen, h m, ih h, hnext]

theorem unseen_append (seen ms ns : List String) :
    unseen seen (ms ++ ns) = unseen seen ms ++ unseen (seen ++ unseen seen ms) ns := by
  induction ms generalizing seen with
  | nil => simp [unseen]
  | cons m ms ih =>
    rw [List.cons_append, unseen, unseen]
    split
    · exact ih seen
    · rw [ih, List.cons_append]
      refine congrArg (m :: ·) (congrArg (_ ++ ·) (unseen_congr ns fun n => ?_))
      simp only [List.mem_cons, List.mem_append]
      exact or_left_comm

theorem nodup_unseen (seen ns : List String) : (unseen seen ns).Nodup := by
  induction ns generalizing seen with
  | nil => simp [unseen]
  | cons m ms ih =>
    rw [unseen]
    split
    · exact ih seen
    · refine List.nodup_cons.2 ⟨?_, ih _⟩
      rw [mem_unseen]
      simp

end CallChain.TypeTable
