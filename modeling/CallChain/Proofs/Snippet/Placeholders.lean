/-
# When placeholders differ

A body has a hole for each argument and each index. The holes of a name are
numbered on their own, so that no two holes have name and number in common
(`Draft.nodup_holes_number`). But a placeholder shows the name and the number
one after the other. Two of them still read the same if the name of one hole is
that of another with the first digits of its number behind it: the second `foo`
and the first `foo2`, if there are both. There is no other way
(`Chain.placeholders_differ`), and none if no name of a hole ends in a digit
(`Chain.nodup_placeholders`).

Key definitions: `Chain.holeNames`, `Chain.placeholders`, `Draft.Clashes`.
Key theorems: `Draft.mem_holes_number_iff`, `Chain.nodup_placeholders`,
`Chain.placeholders_differ`.
-/
import CallChain.Snippet
import Mathlib.Data.List.Nodup

namespace CallChain

/-! ### Holes and their names -/

/-- The hole that a piece is: its name and number. -/
def Piece.hole? : Piece → Option (String × Nat)
  | .text _ => none
  | .hole name nth => some (name, nth)

/-- A hole as it stands in a body. -/
def Piece.placeholder (h : String × Nat) : String := (Piece.hole h.1 h.2).render

namespace Draft

/-- The names of the holes of drafts. -/
def holeNames : List Draft → List String
  | [] => []
  | .text _ :: ds => holeNames ds
  | .hole name :: ds => name :: holeNames ds

theorem holeNames_append (ds es : List Draft) :
    holeNames (ds ++ es) = holeNames ds ++ holeNames es := by
  induction ds with
  | nil => rfl
  | cons d ds ih =>
    cases d with
    | text s => exact ih
    | hole name => exact congrArg (name :: ·) ih

theorem holeNames_arguments : ∀ types : List JavaType,
    holeNames (arguments types) = types.map holeName
  | [] => rfl
  | [_] => rfl
  | type :: next :: types => congrArg (holeName type :: ·) (holeNames_arguments (next :: types))

theorem holeNames_indices (n : Nat) : holeNames (indices n) = List.replicate n "i" := by
  induction n with
  | zero => rfl
  | succ n ih => exact congrArg ("i" :: ·) ih

/-! ### Numbers -/

/-- How many holes of a name came before. -/
def came (before : Counts) (name : String) : Nat := (before.lookup name).getD 0

theorem came_count (before : Counts) (name other : String) :
    came (count name before) other = came before other + if other = name then 1 else 0 := by
  induction before with
  | nil =>
    by_cases h : other = name
    · simp [came, count, h]
    · have hne : (other == name) = false := by simpa using h
      simp [came, count, h, hne, List.lookup_cons]
  | cons c before ih =>
    obtain ⟨n, k⟩ := c
    rw [count]
    by_cases hn : n = name
    · subst hn
      by_cases h : other = n
      · simp [came, h]
      · have hne : (other == n) = false := by simpa using h
        simp [came, h, hne, List.lookup_cons]
    · by_cases h : other = n
      · subst h
        simp [came, hn]
      · have hne : (other == n) = false := by simpa using h
        simpa [came, hn, hne, List.lookup_cons] using ih

variable {before : Counts} {ds : List Draft} {name : String} {nth : Nat}

/-- The holes of a name are numbered on from those that came before, without a gap. -/
theorem mem_holes_number_iff : (name, nth) ∈ (number before ds).filterMap Piece.hole? ↔
    came before name < nth ∧ nth ≤ came before name + (holeNames ds).count name := by
  induction ds generalizing before with
  | nil =>
    simp [number, holeNames]
  | cons d ds ih =>
    cases d with
    | text s => exact ih
    | hole other =>
      have hfirst : (number before (.hole other :: ds)).filterMap Piece.hole? =
          (other, came before other + 1) :: (number (count other before) ds).filterMap Piece.hole? :=
        rfl
      rw [hfirst, List.mem_cons, ih, came_count, holeNames, Prod.mk.injEq]
      by_cases h : name = other
      · subst h
        rw [if_pos rfl, List.count_cons_self, eq_self_iff_true, true_and]
        omega
      · rw [if_neg h, List.count_cons_of_ne (Ne.symm h)]
        simp [h]

theorem nodup_holes_number (before : Counts) (ds : List Draft) :
    ((number before ds).filterMap Piece.hole?).Nodup := by
  induction ds generalizing before with
  | nil => exact List.nodup_nil
  | cons d ds ih =>
    cases d with
    | text s => exact ih before
    | hole name =>
      refine List.nodup_cons.2 ⟨fun hmem => ?_, ih _⟩
      have hlt := (mem_holes_number_iff.1 hmem).1
      rw [came_count, if_pos rfl] at hlt
      exact absurd hlt (Nat.lt_irrefl _)

theorem map_fst_holes_number (before : Counts) (ds : List Draft) :
    ((number before ds).filterMap Piece.hole?).map (·.1) = holeNames ds := by
  induction ds generalizing before with
  | nil => rfl
  | cons d ds ih =>
    cases d with
    | text s => exact ih before
    | hole name => exact congrArg (name :: ·) (ih _)

end Draft

namespace Link

/-- The names of the holes of a link: one for each argument of a method, then `i`
for each index. -/
def holeNames (holes : Nat) (l : Link) : List String :=
  (if l.kind = .method then l.member.parameterTypes.map Draft.holeName else []) ++
    List.replicate holes "i"

theorem holeNames_drafts (first : Bool) (holes : Nat) (l : Link) :
    Draft.holeNames (l.drafts first holes) = l.holeNames holes := by
  unfold drafts holeNames
  cases l.kind with
  | field => exact Draft.holeNames_indices holes
  | localVar => exact Draft.holeNames_indices holes
  | method =>
    rw [List.cons_append, Draft.holeNames, Draft.holeNames_append, Draft.holeNames_arguments,
      Draft.holeNames, Draft.holeNames_indices, if_pos rfl]

end Link

namespace Chain

/-- The names of the holes of links, of which the last keeps dimensions. -/
def holeNamesOf (keptDims : Nat) : List Link → List String
  | [] => []
  | [l] => l.holeNames (l.holes true keptDims)
  | l :: k :: ls => l.holeNames (l.holes false keptDims) ++ holeNamesOf keptDims (k :: ls)

theorem holeNames_bodyDrafts (keptDims : Nat) : ∀ (first : Bool) (ls : List Link),
    Draft.holeNames (bodyDrafts first keptDims ls) = holeNamesOf keptDims ls
  | _, [] => rfl
  | first, [l] => l.holeNames_drafts first _
  | first, l :: k :: ls => by
    rw [bodyDrafts, Draft.holeNames_append, Draft.holeNames, Link.holeNames_drafts,
      holeNames_bodyDrafts keptDims false (k :: ls), holeNamesOf]

/-- The names of the holes of a chain, in the order of its body. -/
def holeNames (c : Chain) : List String := holeNamesOf c.keptDims c.links

/-- The holes in the body of a chain. -/
def holes (c : Chain) : List (String × Nat) := c.bodyPieces.filterMap Piece.hole?

/-- The holes as they stand in the body. -/
def placeholders (c : Chain) : List String := c.holes.map Piece.placeholder

theorem map_fst_holes (c : Chain) : c.holes.map (·.1) = c.holeNames := by
  rw [holes, bodyPieces, Draft.map_fst_holes_number, holeNames_bodyDrafts, holeNames]

theorem nodup_holes (c : Chain) : c.holes.Nodup := Draft.nodup_holes_number _ _

/-- The holes of a name are numbered from one to as many as there are. -/
theorem mem_holes_iff {c : Chain} {name : String} {nth : Nat} :
    (name, nth) ∈ c.holes ↔ 1 ≤ nth ∧ nth ≤ c.holeNames.count name := by
  have hfirst : Draft.came [] name = 0 := rfl
  rw [holes, bodyPieces, Draft.mem_holes_number_iff, hfirst, holeNames_bodyDrafts, holeNames,
    Nat.zero_add]
  exact Iff.rfl

end Chain

/-! ### Placeholders that read the same -/

namespace Piece

/-- The number of a hole as it stands behind the name: nothing for the first. -/
def numeral (nth : Nat) : String := if nth ≤ 1 then "" else Nat.repr nth

theorem placeholder_eq_iff {h k : String × Nat} :
    placeholder h = placeholder k ↔ h.1 ++ numeral h.2 = k.1 ++ numeral k.2 := by
  have hshape : ∀ h : String × Nat,
      (placeholder h).toList = ['$', '\x7b'] ++ (h.1 ++ numeral h.2).toList ++ ['\x7d'] := by
    intro h
    simp [placeholder, render, numeral, String.toList_append]
  rw [← String.toList_inj, hshape, hshape, List.append_left_inj, List.append_right_inj,
    String.toList_inj]

theorem numeral_inj {j k : Nat} (hj : 1 ≤ j) (hk : 1 ≤ k) (h : numeral j = numeral k) : j = k := by
  unfold numeral at h
  split at h <;> split at h
  · omega
  · exact absurd h.symm Nat.repr_ne_empty
  · exact absurd h Nat.repr_ne_empty
  · rw [Nat.repr_eq_ofList_toDigits, Nat.repr_eq_ofList_toDigits, String.ofList_inj] at h
    rw [← Nat.ofDigitChars_ten_toDigits (n := j), h, Nat.ofDigitChars_ten_toDigits]

theorem isDigit_of_mem_numeral {nth : Nat} {c : Char} (h : c ∈ (numeral nth).toList) :
    c.isDigit = true := by
  unfold numeral at h
  split at h
  · simp at h
  · rw [Nat.repr_eq_ofList_toDigits, String.toList_ofList] at h
    exact Nat.isDigit_of_mem_toDigits (by decide) (by decide) h

end Piece

/-- Of names, one has another behind which stand the first digits of a number up
to which the other is numbered; and one of its own numbers shows the rest. -/
def Draft.Clashes (names : List String) : Prop :=
  ∃ name digits j k, digits ≠ "" ∧ (1 ≤ j ∧ j ≤ names.count name) ∧
    (1 ≤ k ∧ k ≤ names.count (name ++ digits)) ∧ Piece.numeral j = digits ++ Piece.numeral k

namespace Chain

variable {c : Chain}

/-- Holes of which the second has the longer name read the same only if they are
one, or names clash. -/
theorem eq_or_clashes {h k : String × Nat} (hh : h ∈ c.holes) (hk : k ∈ c.holes)
    {digits : List Char} (name : k.1.toList = h.1.toList ++ digits)
    (number : (Piece.numeral h.2).toList = digits ++ (Piece.numeral k.2).toList) :
    h = k ∨ Draft.Clashes c.holeNames := by
  obtain ⟨hpos, hle⟩ := mem_holes_iff.1 hh
  obtain ⟨kpos, kle⟩ := mem_holes_iff.1 hk
  by_cases hdigits : digits = []
  · rw [hdigits, List.append_nil] at name
    rw [hdigits, List.nil_append] at number
    have hnth := Piece.numeral_inj hpos kpos (String.toList_inj.1 number)
    exact .inl (Prod.ext (String.toList_inj.1 name).symm hnth)
  · have hname : k.1 = h.1 ++ String.ofList digits := by
      rw [← String.toList_inj, String.toList_append, String.toList_ofList, name]
    have hnumber : Piece.numeral h.2 = String.ofList digits ++ Piece.numeral k.2 := by
      rw [← String.toList_inj, String.toList_append, String.toList_ofList, number]
    have hsome : String.ofList digits ≠ "" := by
      rw [ne_eq, ← String.toList_inj, String.toList_ofList]
      exact hdigits
    rw [hname] at kle
    exact .inr ⟨h.1, String.ofList digits, h.2, k.2, hsome, ⟨hpos, hle⟩, ⟨kpos, kle⟩, hnumber⟩

/-- Placeholders differ from each other exactly if the names of their holes do not
clash. -/
theorem nodup_placeholders_iff (c : Chain) :
    c.placeholders.Nodup ↔ ¬ Draft.Clashes c.holeNames := by
  rw [placeholders, List.nodup_map_iff_inj_on c.nodup_holes]
  constructor
  · rintro hinj ⟨name, digits, j, k, hdigits, hj, hk, hnumber⟩
    have heq : (name, j) = (name ++ digits, k) := by
      refine hinj _ (mem_holes_iff.2 hj) _ (mem_holes_iff.2 hk) (Piece.placeholder_eq_iff.2 ?_)
      rw [hnumber, String.append_assoc]
    have hname : name ++ "" = name ++ digits := by
      rw [String.append_empty]
      exact congrArg Prod.fst heq
    exact hdigits ((String.append_right_inj name).1 hname).symm
  · intro hclash h hh k hk heq
    rw [Piece.placeholder_eq_iff, ← String.toList_inj, String.toList_append, String.toList_append,
      List.append_eq_append_iff] at heq
    rcases heq with ⟨digits, hname, hnumber⟩ | ⟨digits, hname, hnumber⟩
    · exact (eq_or_clashes hh hk hname hnumber).resolve_right hclash
    · exact ((eq_or_clashes hk hh hname hnumber).resolve_right hclash).symm

/-- Where no name of a hole ends in a digit, the placeholders differ. -/
theorem nodup_placeholders
    (letters : ∀ name ∈ c.holeNames, ∀ x ∈ name.toList.getLast?, x.isDigit = false) :
    c.placeholders.Nodup := by
  refine c.nodup_placeholders_iff.2 ?_
  rintro ⟨name, digits, j, k, hdigits, -, ⟨hpos, hle⟩, hnumber⟩
  have hmem : name ++ digits ∈ c.holeNames := List.count_pos_iff.1 (by omega)
  obtain ⟨x, hx⟩ : ∃ x, digits.toList.getLast? = some x := by
    rw [ne_eq, ← String.toList_inj] at hdigits
    exact ⟨digits.toList.getLast hdigits, List.getLast?_eq_some_getLast hdigits⟩
  have hlast : x ∈ (name ++ digits).toList.getLast? := by
    rw [String.toList_append, List.getLast?_append, hx]
    rfl
  have hshown : x ∈ (Piece.numeral j).toList := by
    rw [hnumber, String.toList_append]
    exact List.mem_append_left _ (List.mem_of_getLast? hx)
  have hdigit := Piece.isDigit_of_mem_numeral hshown
  rw [letters _ hmem x hlast] at hdigit
  cases hdigit

/-- **When placeholders differ.** The body of a chain has a hole for each argument
of its methods, named for the type of the argument, and one with the name `i` for
each index. The placeholders that stand for them differ from each other exactly
if these names do not clash. -/
theorem placeholders_differ (c : Chain) : c.holes.map (·.1) = c.holeNames ∧
    (c.placeholders.Nodup ↔ ¬ Draft.Clashes c.holeNames) :=
  ⟨c.map_fst_holes, c.nodup_placeholders_iff⟩

end Chain

namespace Form

/-- A method with two arguments of one type, and one of a type whose name is that
of the first with a digit behind it. -/
def find : Member :=
  .method "p.A" "find" [.named "p.Foo", .named "p.Foo", .named "p.Foo2"] (.named "p.B")

def chain : Chain :=
  { links := [.ofMember find .method (.named "p.B") 0 false], keptDims := 0 }

/-- The second argument has the same placeholder as the third. -/
theorem foo2_twice :
    chain.holeNames = ["foo", "foo", "foo2"] ∧
    chain.body = "find($\x7bfoo\x7d, $\x7bfoo2\x7d, $\x7bfoo2\x7d)" ∧
    chain.placeholders = ["$\x7bfoo\x7d", "$\x7bfoo2\x7d", "$\x7bfoo2\x7d"] ∧
    ¬ chain.placeholders.Nodup := by
  refine ⟨by decide, by decide, by decide, by decide⟩

end Form

end CallChain
