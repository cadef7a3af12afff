/-
# Supertypes are what lies above a type, nearest first

A declaration names types right above it: its superclass, or the type above all
classes in place of one, and its interfaces. The supertypes of a type are the
type and everything that is reached from it by such steps, each once, in the
order of how many steps it takes; the types that come to light with one
declaration stand in the order in which it names them. Declarations may lead
back to each other, name a type twice, or name one that is not declared.

The rounds of `climb` go by steps: after `k` rounds the names seen are those
reached in fewer than `k` steps (`Climbed`). A round with a declared type uses
up one of the declarations, so they come to an end (`Climbed.settled`). To take
the names one by one, as they come to light, is the same (`Ascent.after_round`).

Key definitions: `TypeTable.Extends`, `TypeTable.Above`, `TypeTable.Ascent`,
`TypeTable.BreadthFirst`.
Key theorems: `TypeTable.mem_supertypes_iff`, `TypeTable.supertypes_breadthFirst`.
-/
import CallChain.TypeTable.Hierarchy
import Mathlib.Data.List.Perm.Subperm

namespace CallChain

namespace TypeTable

variable {t : TypeTable} {root : String}

/-! ### Steps upward -/

/-- A declared type names another right above it. -/
inductive Extends (t : TypeTable) : String → String → Prop where
  | superclass {d : TypeDecl} {name : String} (declared : d ∈ t.decls)
      (named : d.superclass = some name) : Extends t d.name name
  | object {d : TypeDecl} (declared : d ∈ t.decls) (unnamed : d.superclass = none)
      (kind : d.kind ≠ .interface) (below : d.name ≠ JavaName.object)
      (top : JavaName.object ∈ t.names) : Extends t d.name JavaName.object
  | interface {d : TypeDecl} {name : String} (declared : d ∈ t.decls)
      (named : name ∈ d.interfaces) : Extends t d.name name

/-- A type is reached from another in so many steps upward. -/
inductive Above (t : TypeTable) (low : String) : Nat → String → Prop where
  | here : Above t low 0 low
  | step {k : Nat} {mid high : String} (reached : Above t low k mid)
      (next : t.Extends mid high) : Above t low (k + 1) high

theorem superclass?_eq_some_iff {low high : String} :
    t.superclass? low = some high ↔ ∃ d ∈ t.decls, d.name = low ∧
      (d.superclass = some high ∨ d.superclass = none ∧ d.kind ≠ .interface ∧
        low ≠ JavaName.object ∧ JavaName.object ∈ t.names ∧ high = JavaName.object) := by
  constructor
  · intro h
    unfold superclass? at h
    cases hfind : t.find? low with
    | none => simp [hfind] at h
    | some d =>
      refine ⟨d, mem_of_find? hfind, name_of_find? hfind, ?_⟩
      cases hsuper : d.superclass with
      | some s =>
        simp only [hfind, hsuper] at h
        exact .inl h
      | none =>
        simp only [hfind, hsuper] at h
        split at h
        · rename_i hobject
          exact .inr ⟨rfl, hobject.1, hobject.2.1, hobject.2.2, (Option.some.inj h).symm⟩
        · cases h
  · rintro ⟨d, hd, rfl, hsuper | ⟨hsuper, hkind, hbelow, htop, rfl⟩⟩
    · simp [superclass?, find?_of_mem hd, hsuper]
    · simp [superclass?, find?_of_mem hd, hsuper, hkind, hbelow, htop]

theorem mem_interfaces_iff {low high : String} :
    high ∈ t.interfaces low ↔ ∃ d ∈ t.decls, d.name = low ∧ high ∈ d.interfaces := by
  constructor
  · intro h
    unfold interfaces at h
    cases hfind : t.find? low with
    | none => simp [hfind] at h
    | some d =>
      simp only [hfind] at h
      exact ⟨d, mem_of_find? hfind, name_of_find? hfind, h⟩
  · rintro ⟨d, hd, rfl, h⟩
    simpa [interfaces, find?_of_mem hd] using h

theorem mem_parents_iff {low high : String} : high ∈ t.parents low ↔ t.Extends low high := by
  rw [parents, List.mem_append, Option.mem_toList, superclass?_eq_some_iff, mem_interfaces_iff]
  constructor
  · rintro (⟨d, hd, rfl, hsuper | ⟨hsuper, hkind, hbelow, htop, rfl⟩⟩ | ⟨d, hd, rfl, h⟩)
    · exact .superclass hd hsuper
    · exact .object hd hsuper hkind hbelow htop
    · exact .interface hd h
  · intro h
    cases h with
    | superclass hd hsuper => exact .inl ⟨_, hd, rfl, .inl hsuper⟩
    | object hd hsuper hkind hbelow htop =>
      exact .inl ⟨_, hd, rfl, .inr ⟨hsuper, hkind, hbelow, htop, rfl⟩⟩
    | interface hd h => exact .inr ⟨_, hd, rfl, h⟩

theorem parents_eq_nil {name : String} (h : name ∉ t.names) : t.parents name = [] := by
  simp [parents, superclass?, interfaces, find?_eq_none h]

theorem Above.trans {low mid high : String} {j k : Nat} (h : t.Above low j mid)
    (h' : t.Above mid k high) : t.Above low (j + k) high := by
  induction h' with
  | here => exact h
  | step _ next ih => exact .step ih next

/-! ### One name at a time -/

/-- An ascent under way: the names seen, in the order in which they came to
light, and those that wait to be looked at. -/
structure Ascent where
  seen : List String
  waiting : List String

namespace Ascent

/-- The first of the names that wait is looked at. If it was not seen before, it
is seen now, and what it names above it joins those that wait. -/
def next (t : TypeTable) (a : Ascent) : Ascent :=
  match a.waiting with
  | [] => a
  | n :: ns =>
    if n ∈ a.seen then { a with waiting := ns }
    else { seen := a.seen ++ [n], waiting := ns ++ t.parents n }

/-- The ascent after so many names were looked at. -/
def after (t : TypeTable) : Nat → Ascent → Ascent
  | 0, a => a
  | k + 1, a => after t k (a.next t)

theorem after_add (j k : Nat) (a : Ascent) : a.after t (j + k) = (a.after t j).after t k := by
  induction j generalizing a with
  | zero => rw [Nat.zero_add, after]
  | succ j ih => rw [Nat.succ_add, after, after, ih]

/-- Names that wait in a row are looked at one by one; what they name joins
those that wait behind them. -/
theorem after_round (round seen later : List String) :
    after t round.length ⟨seen, round ++ later⟩ =
      ⟨seen ++ unseen seen round, later ++ (unseen seen round).flatMap t.parents⟩ := by
  induction round generalizing seen later with
  | nil => simp [after, unseen]
  | cons n ns ih =>
    rw [List.length_cons, after, List.cons_append, unseen]
    by_cases h : n ∈ seen
    · rw [if_pos h, ← ih]
      simp [next, h]
    · have hunseen : unseen (seen ++ [n]) ns = unseen (n :: seen) ns := by
        apply unseen_congr
        intro m
        rw [List.mem_append, List.mem_singleton, List.mem_cons, or_comm]
      have hnext : next t ⟨seen, n :: (ns ++ later)⟩ = ⟨seen ++ [n], ns ++ (later ++ t.parents n)⟩ := by
        simp [next, h]
      rw [if_neg h, hnext, ih, hunseen]
      simp

end Ascent

/-! ### Rounds -/

/-- A type takes no more steps to reach than another does. -/
def NoFarther (t : TypeTable) (root near far : String) : Prop :=
  ∀ k, t.Above root k far → ∃ j ≤ k, t.Above root j near

/-- The state of `climb` after `k` rounds: the names seen are those reached in
fewer steps, and those of the round at hand are reached in just as many. -/
structure Climbed (t : TypeTable) (root : String) (k : Nat) (seen round : List String) : Prop where
  mem_seen : ∀ n, n ∈ seen ↔ ∃ j < k, t.Above root j n
  above : ∀ n ∈ round, t.Above root k n
  covers : ∀ n, t.Above root k n → n ∈ seen ∨ n ∈ round
  nodup : seen.Nodup
  rising : seen.Pairwise (t.NoFarther root)
  listed : seen ++ unseen seen round = unseen [] (root :: seen.flatMap t.parents)
  ascended : ∃ m, Ascent.after t m ⟨[], [root]⟩ = ⟨seen, round⟩

theorem climbed_zero (t : TypeTable) (root : String) : t.Climbed root 0 [] [root] where
  mem_seen := by simp
  above := by
    intro n hn
    rw [List.mem_singleton.1 hn]
    exact .here
  covers := by
    intro n hn
    cases hn
    exact .inr List.mem_cons_self
  nodup := List.nodup_nil
  rising := List.Pairwise.nil
  listed := rfl
  ascended := ⟨0, rfl⟩

namespace Climbed

variable {k : Nat} {seen round : List String}

theorem above_of_mem_unseen (h : t.Climbed root k seen round) {n : String}
    (hn : n ∈ unseen seen round) : t.Above root k n :=
  h.above n (mem_unseen.1 hn).1

theorem le_of_mem_unseen (h : t.Climbed root k seen round) {n : String}
    (hn : n ∈ unseen seen round) {j : Nat} (reached : t.Above root j n) : k ≤ j := by
  by_contra hlt
  exact (mem_unseen.1 hn).2 ((h.mem_seen n).2 ⟨j, by omega, reached⟩)

/-- After a round, the names reached in `k` steps are seen as well. -/
theorem mem_append_unseen (h : t.Climbed root k seen round) (n : String) :
    n ∈ seen ++ unseen seen round ↔ ∃ j < k + 1, t.Above root j n := by
  rw [List.mem_append]
  constructor
  · rintro (hn | hn)
    · obtain ⟨j, hj, reached⟩ := (h.mem_seen n).1 hn
      exact ⟨j, by omega, reached⟩
    · exact ⟨k, by omega, h.above_of_mem_unseen hn⟩
  · rintro ⟨j, hj, reached⟩
    by_cases hseen : n ∈ seen
    · exact .inl hseen
    · have hjk : j = k := by
        by_contra hne
        exact hseen ((h.mem_seen n).2 ⟨j, by omega, reached⟩)
      subst hjk
      exact .inr (mem_unseen.2 ⟨(h.covers n reached).resolve_left hseen, hseen⟩)

/-- A round more. -/
theorem next (h : t.Climbed root k seen round) :
    t.Climbed root (k + 1) (seen ++ unseen seen round)
      ((unseen seen round).flatMap t.parents) := by
  constructor
  case mem_seen => exact h.mem_append_unseen
  case above =>
    intro n hn
    obtain ⟨m, hm, hnamed⟩ := List.mem_flatMap.1 hn
    exact .step (h.above_of_mem_unseen hm) (mem_parents_iff.1 hnamed)
  case covers =>
    intro n hn
    cases hn with
    | @step _ m _ reached hnext =>
      rcases List.mem_append.1 ((h.mem_append_unseen m).2 ⟨k, by omega, reached⟩) with hm | hm
      · -- the type below was reached before, so this one was as well
        obtain ⟨j, hj, hbelow⟩ := (h.mem_seen m).1 hm
        exact .inl ((h.mem_append_unseen n).2 ⟨j + 1, by omega, .step hbelow hnext⟩)
      · exact .inr (List.mem_flatMap.2 ⟨m, hm, mem_parents_iff.2 hnext⟩)
  case nodup =>
    rw [List.nodup_append]
    refine ⟨h.nodup, nodup_unseen seen round, ?_⟩
    rintro a ha b hb rfl
    exact (mem_unseen.1 hb).2 ha
  case rising =>
    rw [List.pairwise_append]
    refine ⟨h.rising, List.pairwise_of_forall_mem_list fun a ha b hb j hj => ?_, ?_⟩
    · exact ⟨k, h.le_of_mem_unseen hb hj, h.above_of_mem_unseen ha⟩
    · intro a ha b hb j hj
      obtain ⟨i, hi, hreached⟩ := (h.mem_seen a).1 ha
      have hk := h.le_of_mem_unseen hb hj
      exact ⟨i, by omega, hreached⟩
  case listed =>
    rw [List.flatMap_append, ← List.cons_append, unseen_append, ← h.listed, List.nil_append]
  case ascended =>
    obtain ⟨m, hm⟩ := h.ascended
    refine ⟨m + round.length, ?_⟩
    have hround := Ascent.after_round (t := t) round seen []
    rw [List.append_nil, List.nil_append] at hround
    rw [Ascent.after_add, hm, hround]

end Climbed

/-! ### The end of the rounds -/

/-- How many of some names are declared. -/
def countDeclared (t : TypeTable) (ns : List String) : Nat := (ns.filter (· ∈ t.names)).length

theorem countDeclared_le {ns : List String} (h : ns.Nodup) : t.countDeclared ns ≤ t.size := by
  have hsub : (ns.filter (· ∈ t.names)) ⊆ t.names := by
    intro n hn
    simpa using (List.mem_filter.1 hn).2
  have hle := (List.subperm_of_subset (h.filter _) hsub).length_le
  rwa [names, List.length_map] at hle

/-- The rounds that are left are enough: there is nothing to look at, or there
are more rounds than declarations of types not seen. -/
def Enough (t : TypeTable) (rounds : Nat) (seen round : List String) : Prop :=
  round = [] ∨ t.size < rounds + t.countDeclared seen

theorem Enough.next {rounds : Nat} {seen round : List String}
    (h : t.Enough (rounds + 1) seen round) (some_left : unseen seen round ≠ []) :
    t.Enough rounds (seen ++ unseen seen round) ((unseen seen round).flatMap t.parents) := by
  by_cases hdeclared : ∃ n ∈ unseen seen round, n ∈ t.names
  · obtain ⟨n, hn, hname⟩ := hdeclared
    have hround : round ≠ [] := by
      rintro rfl
      exact some_left rfl
    have hpos : 0 < t.countDeclared (unseen seen round) := by
      rw [countDeclared, List.length_pos_iff_exists_mem]
      exact ⟨n, List.mem_filter.2 ⟨hn, by simpa using hname⟩⟩
    have hcount : t.countDeclared (seen ++ unseen seen round) =
        t.countDeclared seen + t.countDeclared (unseen seen round) := by
      simp [countDeclared, List.filter_append]
    have hleft := h.resolve_left hround
    right
    omega
  · left
    rw [List.flatMap_eq_nil_iff]
    intro n hn
    exact parents_eq_nil fun hname => hdeclared ⟨n, hn, hname⟩

/-- `climb` ends where a round brings nothing new. -/
theorem Climbed.settled {rounds k : Nat} {seen round : List String}
    (h : t.Climbed root k seen round) (enough : t.Enough rounds seen round) :
    ∃ k' round', t.Climbed root k' (t.climb rounds seen round) round' ∧
      unseen (t.climb rounds seen round) round' = [] := by
  induction rounds generalizing k seen round with
  | zero =>
    have hround : round = [] := by
      rcases enough with hnone | hlt
      · exact hnone
      · have hle := countDeclared_le (t := t) h.nodup
        omega
    subst hround
    exact ⟨k, [], h, rfl⟩
  | succ rounds ih =>
    rw [climb]
    cases hnew : unseen seen round with
    | nil => exact ⟨k, round, h, hnew⟩
    | cons n ns =>
      have hnext := h.next
      have hrounds := enough.next (by rw [hnew]; exact List.cons_ne_nil n ns)
      rw [hnew] at hnext hrounds
      exact ih hnext hrounds

theorem supertypes_settled {type : JavaType} (h : type.elementType.erasure? = some root) :
    ∃ k round, t.Climbed root k (t.supertypes type) round ∧
      unseen (t.supertypes type) round = [] := by
  have hclimb : t.supertypes type = t.climb (t.size + 1) [] [root] := by
    unfold supertypes
    rw [h]
  rw [hclimb]
  exact (climbed_zero t root).settled (.inr (by omega))

theorem Climbed.mem_of_above {k : Nat} {seen round : List String}
    (h : t.Climbed root k seen round) (nothing_new : unseen seen round = []) {j : Nat} {n : String}
    (reached : t.Above root j n) : n ∈ seen := by
  have early : ∀ {i m}, i < k + 1 → t.Above root i m → m ∈ seen := by
    intro i m hi hm
    have hmem := (h.mem_append_unseen m).2 ⟨i, hi, hm⟩
    rwa [nothing_new, List.append_nil] at hmem
  induction reached with
  | here => exact early (Nat.succ_pos k) .here
  | step _ hnext ih =>
    obtain ⟨i, hi, hbelow⟩ := (h.mem_seen _).1 ih
    exact early (by omega) (.step hbelow hnext)

/-- The supertypes of a type are what is reached from it. -/
theorem mem_supertypes_iff {type : JavaType} {n : String} :
    n ∈ t.supertypes type ↔
      ∃ root, type.elementType.erasure? = some root ∧ ∃ k, t.Above root k n := by
  cases herasure : type.elementType.erasure? with
  | none => simp [supertypes, herasure]
  | some root =>
    obtain ⟨k, round, hclimbed, hend⟩ := supertypes_settled (t := t) herasure
    constructor
    · intro hn
      obtain ⟨j, -, hj⟩ := (hclimbed.mem_seen n).1 hn
      exact ⟨root, rfl, j, hj⟩
    · rintro ⟨_, heq, j, hj⟩
      obtain rfl := Option.some.inj heq
      exact hclimbed.mem_of_above hend hj

/-! ### The order -/

/-- In a list of names, one type is the first to name another: the list does
not begin with the other, and no type further to the front names it. -/
structure FirstNames (t : TypeTable) (ns : List String) (low high : String) : Prop where
  mem : low ∈ ns
  extends_ : t.Extends low high
  not_head : ns.head? ≠ some high
  first : ∀ before after, ns = before ++ low :: after → ∀ n ∈ before, ¬ t.Extends n high

/-- Of two names in a row of names that are not seen before it, what is left
of the row has the first before the second. -/
theorem sublist_unseen {seen before after : List String} {a b : String} (differ : a ≠ b)
    (ha : a ∉ seen ++ before) (hb : b ∉ seen ++ before) (later : b ∈ after) :
    [a, b].Sublist (unseen seen (before ++ a :: after)) := by
  have hfresh : ∀ {x}, x ∉ seen ++ before → x ∉ seen ++ unseen seen before := by
    intro x hx hmem
    rw [List.mem_append] at hx hmem
    exact hx (hmem.imp_right fun h => (mem_unseen.1 h).1)
  have hmem : b ∈ unseen (a :: (seen ++ unseen seen before)) after := by
    refine mem_unseen.2 ⟨later, ?_⟩
    rw [List.mem_cons, not_or]
    exact ⟨differ.symm, hfresh hb⟩
  rw [unseen_append, unseen, if_neg (hfresh ha)]
  refine List.Sublist.trans ?_ (List.sublist_append_right _ _)
  exact List.cons_sublist_cons.2 (List.singleton_sublist.2 hmem)

/-- A list of names has what is above a type, nearest first. -/
structure BreadthFirst (t : TypeTable) (root : String) (ns : List String) : Prop where
  head : ns.head? = some root
  nodup : ns.Nodup
  mem_iff : ∀ n, n ∈ ns ↔ ∃ k, t.Above root k n
  rising : ns.Pairwise (t.NoFarther root)
  superclass_first : ∀ low super interface, t.superclass? low = some super →
    interface ∈ t.interfaces low → super ≠ interface → t.FirstNames ns low super →
    t.FirstNames ns low interface → [super, interface].Sublist ns
  ascended : ∃ k, Ascent.after t k ⟨[], [root]⟩ = ⟨ns, []⟩

/-- In the end the names seen are the first of them and all that they name, each
where it comes to light first. -/
theorem Climbed.eq_unseen {k : Nat} {seen round : List String} (h : t.Climbed root k seen round)
    (nothing_new : unseen seen round = []) :
    seen = unseen [] (root :: seen.flatMap t.parents) := by
  have hlisted := h.listed
  rwa [nothing_new, List.append_nil] at hlisted

/-- The superclass comes before the interfaces of a type, among what the type is
the first to name. -/
theorem superclass_first_of_eq_unseen {ns : List String}
    (h : ns = unseen [] (root :: ns.flatMap t.parents)) {low super interface : String}
    (hsuper : t.superclass? low = some super) (hinterface : interface ∈ t.interfaces low)
    (differ : super ≠ interface) (first_super : t.FirstNames ns low super)
    (first_interface : t.FirstNames ns low interface) : [super, interface].Sublist ns := by
  obtain ⟨before, after, hsplit⟩ := List.append_of_mem first_super.mem
  have hhead : ns.head? = some root := by
    rw [h, unseen, if_neg List.not_mem_nil, List.head?_cons]
  have hnew : ∀ {name}, t.FirstNames ns low name →
      name ∉ [] ++ root :: before.flatMap t.parents := by
    intro name hfirst hmem
    rw [List.nil_append, List.mem_cons, List.mem_flatMap] at hmem
    rcases hmem with rfl | ⟨n, hn, hnamed⟩
    · exact hfirst.not_head hhead
    · exact hfirst.first before after hsplit n hn (mem_parents_iff.1 hnamed)
  have hrow : root :: ns.flatMap t.parents = (root :: before.flatMap t.parents) ++
      super :: (t.interfaces low ++ after.flatMap t.parents) := by
    rw [hsplit, List.flatMap_append, List.flatMap_cons, parents, hsuper]
    simp
  rw [h, hrow]
  exact sublist_unseen differ (hnew first_super) (hnew first_interface)
    (List.mem_append_left _ hinterface)

/-- **Supertypes are found breadth first.** A type has supertypes exactly if it
has a full name under its dimensions; these are what is above that name, nearest
first, and to take names one by one comes to an end with just these. -/
theorem supertypes_breadthFirst (t : TypeTable) (type : JavaType) :
    (t.supertypes type = [] ↔ type.elementType.erasure? = none) ∧
    ∀ root, type.elementType.erasure? = some root → t.BreadthFirst root (t.supertypes type) := by
  have hfirst : ∀ root, type.elementType.erasure? = some root →
      t.BreadthFirst root (t.supertypes type) := by
    intro root herasure
    obtain ⟨k, round, hclimbed, hend⟩ := supertypes_settled (t := t) herasure
    have hlisted := hclimbed.eq_unseen hend
    constructor
    case head => rw [hlisted, unseen, if_neg List.not_mem_nil, List.head?_cons]
    case nodup => exact hclimbed.nodup
    case mem_iff =>
      intro n
      rw [mem_supertypes_iff, herasure]
      simp
    case rising => exact hclimbed.rising
    case superclass_first =>
      intro low super interface hsuper hinterface differ first_super first_interface
      exact superclass_first_of_eq_unseen hlisted hsuper hinterface differ first_super
        first_interface
    case ascended =>
      obtain ⟨m, hm⟩ := hclimbed.ascended
      have hround := Ascent.after_round (t := t) round (t.supertypes type) []
      rw [hend, List.append_nil, List.append_nil] at hround
      exact ⟨m + round.length, by rw [Ascent.after_add, hm, hround]; rfl⟩
  refine ⟨⟨fun hnil => ?_, fun hnone => by simp [supertypes, hnone]⟩, hfirst⟩
  cases herasure : type.elementType.erasure? with
  | none => rfl
  | some root =>
    have hhead := (hfirst root herasure).head
    rw [hnil] at hhead
    cases hhead

end TypeTable

namespace Knot

/-- Two classes that extend each other, an interface that extends itself, an
interface named twice and one that is not declared. -/
def table : TypeTable := .ofDecls [
  { name := "java.lang.Object" },
  { name := "A", superclass := some "B", interfaces := ["I", "I", "A"] },
  { name := "B", superclass := some "A", interfaces := ["U", "C"] },
  { name := "C" },
  { name := "I", kind := .interface, interfaces := ["I"] }]

/-- Three rounds find all that is above a type of the knot, whose dimensions do
not count; a primitive has nothing above it. -/
theorem breadthFirst_knot :
    (JavaType.array (.named "A") 2).elementType.erasure? = some "A" ∧
    table.supertypes (.array (.named "A") 2) = ["A", "B", "I", "U", "C", "java.lang.Object"] ∧
    table.BreadthFirst "A" ["A", "B", "I", "U", "C", "java.lang.Object"] ∧
    table.supertypes (.plain "int") = [] := by
  have hnames : table.supertypes (.array (.named "A") 2) =
      ["A", "B", "I", "U", "C", "java.lang.Object"] := by decide
  have hA := (TypeTable.supertypes_breadthFirst table (.array (.named "A") 2)).2 "A" rfl
  have hint := (TypeTable.supertypes_breadthFirst table (.plain "int")).1
  rw [hnames] at hA
  exact ⟨rfl, hnames, hA, hint.2 rfl⟩

end Knot

end CallChain
