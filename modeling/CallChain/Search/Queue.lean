/-
# First in, first out

A queue of two lists: what leaves next stands at the head of the front, what
came last at the head of the back. `toList` lists it in the order of leaving.

Key definitions: `Queue`, `Queue.toList`, `Queue.pushAll`, `Queue.pop?`.
-/
namespace CallChain

/-- A queue that knows its size. -/
structure Queue (α : Type) where
  front : List α
  back : List α
  size : Nat
  size_eq : size = front.length + back.length

namespace Queue

variable {α : Type}

/-- The waiting items, the next one first. -/
def toList (q : Queue α) : List α := q.front ++ q.back.reverse

/-- The queue of the items of a list. -/
def ofList (as : List α) : Queue α where
  front := as
  back := []
  size := as.length
  size_eq := by simp

/-- The queue with the items of a list behind the others. -/
def pushAll (q : Queue α) (as : List α) : Queue α where
  front := q.front
  back := as.reverse ++ q.back
  size := q.size + as.length
  size_eq := by
    rw [List.length_append, List.length_reverse, q.size_eq]
    omega

/-- The next item and the queue without it. -/
def pop? (q : Queue α) : Option (α × Queue α) :=
  match h : q.front with
  | a :: rest => some (a, {
      front := rest
      back := q.back
      size := q.size - 1
      size_eq := by
        rw [q.size_eq, h, List.length_cons]
        omega })
  | [] =>
    match hb : q.back.reverse with
    | a :: rest => some (a, {
        front := rest
        back := []
        size := q.size - 1
        size_eq := by
          have := congrArg List.length hb
          rw [List.length_reverse, List.length_cons] at this
          rw [q.size_eq, h, this, List.length_nil]
          omega })
    | [] => none

theorem length_toList (q : Queue α) : q.toList.length = q.size := by
  rw [toList, List.length_append, List.length_reverse, q.size_eq]

@[simp]
theorem toList_ofList (as : List α) : (ofList as).toList = as := by simp [toList, ofList]

@[simp]
theorem toList_pushAll (q : Queue α) (as : List α) : (q.pushAll as).toList = q.toList ++ as := by
  simp [toList, pushAll]

theorem pop?_eq_none_iff {q : Queue α} : q.pop? = none ↔ q.toList = [] := by
  unfold pop? toList
  split
  · rename_i h
    simp [h]
  · rename_i h
    split
    · rename_i hb
      simp [h, hb]
    · rename_i hb
      simp [h, hb]

/-- What leaves is the head of the list, and the rest stays. -/
theorem toList_of_pop? {q r : Queue α} {a : α} (h : q.pop? = some (a, r)) :
    q.toList = a :: r.toList := by
  unfold pop? at h
  split at h
  · rename_i hf
    cases h
    simp [toList, hf]
  · rename_i hf
    split at h
    · rename_i hb
      cases h
      simp [toList, hf, hb]
    · cases h

end Queue

end CallChain
