/-
# Texts without marks

A text that avoids certain characters, the marks, is made of parts that avoid
them. If one of the marks follows on it, the text ends where the first of them
stands: the text, the mark and what comes after are told apart
(`append_cons_inj`), and texts without marks that begin it all begin the text
(`prefix_append_cons_iff`). Of texts in a row with a mark between them, the
first stands before it (`beforeFirst_intercalate`).

Key definition: `Text.Avoids`.
-/
import CallChain.Text.Pieces

namespace CallChain.Text

def isParenthesis (c : Char) : Bool := c == '(' || c == ')'

def isBracket (c : Char) : Bool := c == '[' || c == ']'

/-- No character of a text satisfies `p`. -/
def Avoids (p : Char → Bool) (s : String) : Prop := ∀ c ∈ s.toList, p c = false

instance (p : Char → Bool) (s : String) : Decidable (Avoids p s) :=
  List.decidableBAll (fun c => p c = false) s.toList

theorem Avoids.append {p : Char → Bool} {s t : String} (hs : Avoids p s) (ht : Avoids p t) :
    Avoids p (s ++ t) := by
  intro c hc
  rw [String.toList_append, List.mem_append] at hc
  exact hc.elim (hs c) (ht c)

theorem Avoids.copies {p : Char → Bool} {s : String} (hs : Avoids p s) (n : Nat) :
    Avoids p (copies n s) := by
  intro c hc
  rw [Text.copies, String.toList_join, List.mem_flatMap] at hc
  obtain ⟨t, ht, hc⟩ := hc
  rw [List.eq_of_mem_replicate ht] at hc
  exact hs c hc

theorem Avoids.intercalate {p : Char → Bool} {s : String} {ts : List String} (hs : Avoids p s)
    (hts : ∀ t ∈ ts, Avoids p t) : Avoids p (s.intercalate ts) := by
  induction ts with
  | nil => exact fun c hc => absurd hc (by simp)
  | cons t ts ih =>
    rw [List.forall_mem_cons] at hts
    cases ts with
    | nil =>
      rw [String.intercalate_singleton]
      exact hts.1
    | cons u ts =>
      rw [String.intercalate_cons_cons]
      exact (hts.1.append hs).append (ih hts.2)

theorem beforeFirst_append {sep : Char} {s : String} (h : Avoids (· == sep) s) (t : String) :
    beforeFirst sep (s ++ t) = s ++ beforeFirst sep t := by
  have hkept : ∀ c ∈ s.toList, decide (c ≠ sep) = true := fun c hc => by simpa using h c hc
  rw [← String.toList_inj, String.toList_append, beforeFirst, beforeFirst, String.toList_ofList,
    String.toList_ofList, String.toList_append, List.takeWhile_append_of_pos hkept]

theorem beforeFirst_of_avoids {sep : Char} {s : String} (h : Avoids (· == sep) s) :
    beforeFirst sep s = s := by
  have hself := beforeFirst_append h ""
  have hnone : beforeFirst sep "" = "" := rfl
  rwa [String.append_empty, hnone, String.append_empty] at hself

theorem avoids_beforeFirst (sep : Char) (s : String) : Avoids (· == sep) (beforeFirst sep s) := by
  intro c hc
  rw [beforeFirst, String.toList_ofList] at hc
  simpa using List.all_eq_true.1 List.all_takeWhile c hc

theorem beforeFirst_append_singleton_append (sep : Char) (s t : String) :
    beforeFirst sep (s ++ (String.singleton sep ++ t)) = beforeFirst sep s := by
  have hlist : ∀ cs : List Char, (cs ++ sep :: t.toList).takeWhile (· ≠ sep) =
      cs.takeWhile (· ≠ sep) := by
    intro cs
    induction cs with
    | nil => simp
    | cons c cs ih => rw [List.cons_append, List.takeWhile_cons, List.takeWhile_cons, ih]
  rw [beforeFirst, beforeFirst, String.toList_append, String.toList_append, String.toList_singleton,
    List.singleton_append, hlist]

theorem beforeFirst_intercalate {sep : Char} {s : String} (h : Avoids (· == sep) s)
    (ts : List String) : beforeFirst sep ((String.singleton sep).intercalate (s :: ts)) = s := by
  cases ts with
  | nil => exact beforeFirst_of_avoids h
  | cons t ts =>
    rw [String.intercalate_cons_cons, String.append_assoc, beforeFirst_append_singleton_append,
      beforeFirst_of_avoids h]

theorem eq_append_of_beforeLast? {sep : Char} {s r : String} (h : beforeLast? sep s = some r) :
    ∃ t, s = r ++ (String.singleton sep ++ t) := by
  unfold beforeLast? at h
  split at h
  · cases h
  · rename_i c cs hdrop
    have hc : c = sep := by
      have hhead := List.head?_dropWhile_not (· ≠ sep) s.toList.reverse
      rw [hdrop] at hhead
      simpa using hhead
    obtain ⟨ds, hds⟩ : ∃ ds, ds ++ c :: cs = s.toList.reverse :=
      ⟨_, hdrop ▸ List.takeWhile_append_dropWhile⟩
    refine ⟨String.ofList ds.reverse, ?_⟩
    rw [← Option.some.inj h, ← String.toList_inj, ← List.reverse_inj, ← hds, hc]
    simp

/-- Two texts without marks, each with a mark after it, are equal if all together
is equal. -/
theorem append_cons_inj {p : Char → Bool} {cs ds xs ys : List Char} {c d : Char}
    (hcs : ∀ x ∈ cs, p x = false) (hds : ∀ x ∈ ds, p x = false) (hc : p c = true)
    (hd : p d = true) (h : cs ++ c :: xs = ds ++ d :: ys) : cs = ds ∧ c = d ∧ xs = ys := by
  induction cs generalizing ds with
  | nil =>
    cases ds with
    | nil => simpa using h
    | cons e ds =>
      obtain ⟨rfl, -⟩ := List.cons.inj h
      rw [hds c List.mem_cons_self] at hc
      cases hc
  | cons b cs ih =>
    rw [List.forall_mem_cons] at hcs
    cases ds with
    | nil =>
      obtain ⟨rfl, -⟩ := List.cons.inj h
      rw [hcs.1] at hd
      cases hd
    | cons e ds =>
      rw [List.forall_mem_cons] at hds
      obtain ⟨rfl, hrest⟩ := List.cons.inj h
      obtain ⟨rfl, hmark, hxs⟩ := ih hcs.2 hds.2 hrest
      exact ⟨rfl, hmark, hxs⟩

/-- A text without a mark that begins another begins what stands before the
mark. -/
theorem prefix_append_cons_iff {cs ds xs : List Char} {c : Char} (h : c ∉ cs) :
    cs <+: ds ++ c :: xs ↔ cs <+: ds := by
  refine ⟨fun hcs => ?_, fun hcs => hcs.trans (List.prefix_append ds _)⟩
  rcases List.prefix_or_prefix_of_prefix hcs (List.prefix_append ds _) with hcs' | ⟨es, rfl⟩
  · exact hcs'
  · rw [List.prefix_append_right_inj] at hcs
    rcases List.prefix_cons_iff.1 hcs with rfl | ⟨fs, rfl, -⟩
    · simp
    · exact absurd (List.mem_append_right ds List.mem_cons_self) h

end CallChain.Text
