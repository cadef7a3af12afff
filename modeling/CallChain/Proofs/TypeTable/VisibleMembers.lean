/-
# Visible members are the first declarations that count

A query for the members of a type goes through what the type and its supertypes
declare, nearest first, and of what counts it keeps the first of each slot. It
fails only for a type whose name is not declared; above that, types that are
not declared are passed over.

The members found are followed back to the positions where they are stored
(`placed`): what is kept of the positions is a part of them in their order
(`Member.exists_firstOfSlots`), and they are stored in rising order
(`pairwise_placed`).

Key definitions: `Position`, `TypeTable.Stored`, `TypeTable.Eligible`,
`TypeTable.FirstDeclared`.
Key theorems: `TypeTable.visibleMembers_eq_ok_iff`, `TypeTable.visibleMembers_first`.
-/
import CallChain.Proofs.TypeTable.Supertypes
import CallChain.TypeTable.Members

namespace CallChain

/-- Of entries that each give a member, those whose members are kept as the
first of their slots are a part of them, in their order. An entry whose slot is
not taken is one of these, or stands after one with its slot. -/
theorem Member.exists_firstOfSlots {α : Type} (f : α → Member) :
    ∀ (taken : List String) (entries : List α), ∃ kept : List α, kept.Sublist entries ∧
      kept.map f = firstOfSlots taken (entries.map f) ∧
      ∀ e ∈ entries, (f e).slot ∉ taken →
        ∃ k ∈ kept, (f k).slot = (f e).slot ∧ (k = e ∨ [k, e].Sublist entries)
  | _, [] => ⟨[], List.Sublist.refl [], rfl, fun e he => by cases he⟩
  | taken, a :: as => by
    by_cases ha : (f a).slot ∈ taken
    · obtain ⟨kept, hsub, hmap, hfirst⟩ := exists_firstOfSlots f taken as
      refine ⟨kept, hsub.cons a, ?_, fun e he hfree => ?_⟩
      · rw [hmap, List.map_cons, firstOfSlots, if_pos ha]
      · rcases List.mem_cons.1 he with rfl | he
        · exact absurd ha hfree
        · obtain ⟨k, hk, hslot, hbefore⟩ := hfirst e he hfree
          exact ⟨k, hk, hslot, hbefore.imp_right (·.cons a)⟩
    · obtain ⟨kept, hsub, hmap, hfirst⟩ := exists_firstOfSlots f ((f a).slot :: taken) as
      refine ⟨a :: kept, hsub.cons_cons a, ?_, fun e he hfree => ?_⟩
      · rw [List.map_cons, hmap, List.map_cons, firstOfSlots, if_neg ha]
      · rcases List.mem_cons.1 he with rfl | he
        · exact ⟨e, List.mem_cons_self, rfl, .inl rfl⟩
        · by_cases hsame : (f e).slot = (f a).slot
          · have hrow : [a, e].Sublist (a :: as) :=
              List.cons_sublist_cons.2 (List.singleton_sublist.2 he)
            exact ⟨a, List.mem_cons_self, hsame.symm, .inr hrow⟩
          · have hfree' : (f e).slot ∉ (f a).slot :: taken := by
              rw [List.mem_cons, not_or]
              exact ⟨hsame, hfree⟩
            obtain ⟨k, hk, hslot, hbefore⟩ := hfirst e he hfree'
            exact ⟨k, List.mem_cons_of_mem _ hk, hslot, hbefore.imp_right (·.cons a)⟩

/-! ### Positions -/

/-- Where a member is stored: the rank of the type that declares it among a type
and its supertypes, and the index of the member in the declaration. -/
structure Position where
  rank : Nat
  index : Nat
  deriving DecidableEq

/-- A position is before another if its type is nearer, or the same and its
index is less. -/
def Position.Before (p q : Position) : Prop :=
  p.rank < q.rank ∨ p.rank = q.rank ∧ p.index < q.index

theorem Position.Before.irrefl (p : Position) : ¬ p.Before p := by
  rintro (h | ⟨-, h⟩)
  · exact Nat.lt_irrefl _ h
  · exact Nat.lt_irrefl _ h

theorem Position.Before.trans {p q r : Position} (h : p.Before q) (h' : q.Before r) :
    p.Before r := by
  unfold Before at *
  omega

namespace TypeTable

variable {t : TypeTable} {scope : MemberScope} {site : Site} {type : JavaType}

/-- A member is stored at a position among the members of a type and its
supertypes. -/
def Stored (t : TypeTable) (type : JavaType) (p : Position) (m : Member) : Prop :=
  ∃ d ∈ t.decls, (t.supertypes type)[p.rank]? = some d.name ∧ d.members[p.index]? = some m

/-- The members declared in a type; none if it is not declared. -/
def declaredIn (t : TypeTable) (name : String) : List Member := (t.declared name).toOption.getD []

theorem declared_of_mem {d : TypeDecl} (h : d ∈ t.decls) : t.declared d.name = .ok d.members := by
  simp [declared, find?_of_mem h]

theorem declared_of_not_mem {name : String} (h : name ∉ t.names) :
    t.declared name = .error (.unresolvedType name) := by
  simp [declared, find?_eq_none h]

theorem declaredIn_of_mem {d : TypeDecl} (h : d ∈ t.decls) : t.declaredIn d.name = d.members := by
  rw [declaredIn, declared_of_mem h]
  rfl

theorem declaredIn_of_not_mem {name : String} (h : name ∉ t.names) : t.declaredIn name = [] := by
  rw [declaredIn, declared_of_not_mem h]
  rfl

/-- The members of types in a row, with their positions. -/
def placed (t : TypeTable) (names : List String) : List (Position × Member) :=
  names.zipIdx.flatMap fun e => (t.declaredIn e.1).zipIdx.map fun f => (⟨e.2, f.2⟩, f.1)

theorem map_snd_placed (names : List String) :
    (t.placed names).map (·.2) = names.flatMap t.declaredIn := by
  have hmembers : ∀ e : String × Nat, ((t.declaredIn e.1).zipIdx.map fun f =>
      ((⟨e.2, f.2⟩ : Position), f.1)).map (·.2) = t.declaredIn e.1 := by
    intro e
    rw [List.map_map]
    exact List.zipIdx_map_fst 0 _
  calc (t.placed names).map (·.2)
      = names.zipIdx.flatMap fun e => t.declaredIn e.1 := by
        rw [placed, List.map_flatMap, funext hmembers]
    _ = (names.zipIdx.map Prod.fst).flatMap t.declaredIn := by rw [List.flatMap_map]
    _ = names.flatMap t.declaredIn := by rw [List.zipIdx_map_fst]

theorem mem_placed_iff {p : Position} {m : Member} :
    (p, m) ∈ t.placed (t.supertypes type) ↔ t.Stored type p m := by
  have hplace : (p, m) ∈ t.placed (t.supertypes type) ↔
      ∃ name, (t.supertypes type)[p.rank]? = some name ∧
        (t.declaredIn name)[p.index]? = some m := by
    simp only [placed, List.mem_flatMap, List.mem_map, List.mem_zipIdx_iff_getElem?, Prod.exists,
      Prod.mk.injEq]
    constructor
    · rintro ⟨name, rank, hname, k, index, hk, rfl, rfl⟩
      exact ⟨name, hname, hk⟩
    · rintro ⟨name, hname, hm⟩
      exact ⟨name, p.rank, hname, m, p.index, hm, rfl, rfl⟩
  rw [hplace, Stored]
  constructor
  · rintro ⟨name, hname, hm⟩
    by_cases hdeclared : name ∈ t.names
    · obtain ⟨d, hd, rfl⟩ := List.mem_map.1 hdeclared
      rw [declaredIn_of_mem hd] at hm
      exact ⟨d, hd, hname, hm⟩
    · rw [declaredIn_of_not_mem hdeclared] at hm
      cases hm
  · rintro ⟨d, hd, hname, hm⟩
    exact ⟨d.name, hname, by rwa [declaredIn_of_mem hd]⟩

theorem pairwise_placed (names : List String) :
    (t.placed names).Pairwise fun e f => e.1.Before f.1 := by
  have hindices : ∀ {α : Type} (l : List α), l.zipIdx.Pairwise fun a b => a.2 < b.2 := by
    intro α l
    rw [← List.pairwise_map (f := Prod.snd) (R := (· < ·)), List.zipIdx_map_snd]
    exact List.pairwise_lt_range'
  rw [placed, List.pairwise_flatMap]
  constructor
  · rintro ⟨name, rank⟩ -
    rw [List.pairwise_map]
    exact (hindices _).imp fun h => .inr ⟨rfl, h⟩
  · refine (hindices names).imp fun {a b} h e he f hf => ?_
    obtain ⟨-, -, rfl⟩ := List.mem_map.1 he
    obtain ⟨-, -, rfl⟩ := List.mem_map.1 hf
    exact .inl h

/-! ### What a query finds -/

/-- A member counts for a query: it belongs to values or to types, as asked, is a
field or a method whose result has members or dimensions, and may be used from
the site. -/
structure Eligible (t : TypeTable) (scope : MemberScope) (site : Site) (m : Member) : Prop where
  static_iff : m.isStatic = true ↔ scope = .type
  kind : m.kind = .field ∨
    m.kind = .method ∧ m.type.isVoid = false ∧ m.type.isPrimitive = false
  visible : t.isVisible site m = true

theorem offers_iff {m : Member} :
    scope.offers m = true ↔ (m.isStatic = true ↔ scope = .type) ∧ (m.kind = .field ∨
      m.kind = .method ∧ m.type.isVoid = false ∧ m.type.isPrimitive = false) := by
  have hstatic : (m.isStatic == (scope == .type)) = true ↔ (m.isStatic = true ↔ scope = .type) := by
    rw [beq_iff_eq, Bool.eq_iff_iff, beq_iff_eq]
  rw [MemberScope.offers, Bool.and_eq_true, hstatic]
  refine and_congr_right fun _ => ?_
  cases m.kind <;> simp

theorem eligible_iff {m : Member} :
    (scope.offers m && t.isVisible site m) = true ↔ t.Eligible scope site m := by
  rw [Bool.and_eq_true, offers_iff]
  exact ⟨fun ⟨⟨hstatic, hkind⟩, hvisible⟩ => ⟨hstatic, hkind, hvisible⟩,
    fun ⟨hstatic, hkind, hvisible⟩ => ⟨⟨hstatic, hkind⟩, hvisible⟩⟩

/-- The members that count, with their positions. -/
def candidates (t : TypeTable) (scope : MemberScope) (site : Site) (type : JavaType) :
    List (Position × Member) :=
  (t.placed (t.supertypes type)).filter fun e => scope.offers e.2 && t.isVisible site e.2

theorem map_snd_candidates : (t.candidates scope site type).map (·.2) =
    ((t.supertypes type).flatMap t.declaredIn).filter fun m =>
      scope.offers m && t.isVisible site m := by
  rw [candidates, ← map_snd_placed, List.filter_map]
  rfl

theorem mem_candidates_iff {p : Position} {m : Member} :
    (p, m) ∈ t.candidates scope site type ↔ t.Stored type p m ∧ t.Eligible scope site m := by
  rw [candidates, List.mem_filter, mem_placed_iff, eligible_iff]

theorem pairwise_candidates :
    (t.candidates scope site type).Pairwise fun e f => e.1.Before f.1 :=
  (pairwise_placed _).sublist List.filter_sublist

theorem supertypes_eq_cons {root : String} (h : type.elementType.erasure? = some root) :
    ∃ above, t.supertypes type = root :: above := by
  obtain ⟨k, round, hclimbed, hend⟩ := supertypes_settled (t := t) h
  rw [hclimbed.eq_unseen hend, unseen, if_neg List.not_mem_nil]
  exact ⟨_, rfl⟩

theorem supertypes_eq_nil (h : type.elementType.erasure? = none) : t.supertypes type = [] := by
  simp [supertypes, h]

/-- A query has an answer exactly if the type is declared, whatever its arguments
and dimensions: of what counts among the members of its supertypes, the first of
each slot. -/
theorem visibleMembers_eq_ok_iff {ms : List Member} :
    t.visibleMembers scope site type = .ok ms ↔
      (∃ root, type.elementType.erasure? = some root ∧ root ∈ t.names) ∧
      Member.firstOfSlots [] ((t.candidates scope site type).map (·.2)) = ms := by
  rw [visibleMembers, membersBy, map_snd_candidates]
  cases herasure : type.elementType.erasure? with
  | none => simp [supertypes_eq_nil herasure]
  | some root =>
    obtain ⟨above, hsupertypes⟩ := supertypes_eq_cons (t := t) herasure
    rw [hsupertypes]
    by_cases hroot : root ∈ t.names
    · obtain ⟨d, hd, rfl⟩ := List.mem_map.1 hroot
      have hdeclared : (d.name :: above).flatMap t.declaredIn =
          d.members ++ above.flatMap fun name => (t.declared name).toOption.getD [] := by
        rw [List.flatMap_cons, declaredIn_of_mem hd]
        rfl
      simp [declared_of_mem hd, bind, Except.bind, hroot, hdeclared]
    · simp [declared_of_not_mem hroot, bind, Except.bind, hroot]

/-- Members with their positions are what a query is to find: they are stored
there and count, no slot is filled twice, they stand in the order of their
positions, and all that counts has its slot filled from where it is stored or
from before. -/
structure FirstDeclared (t : TypeTable) (scope : MemberScope) (site : Site) (type : JavaType)
    (found : List (Position × Member)) : Prop where
  stored : ∀ e ∈ found, t.Stored type e.1 e.2
  eligible : ∀ e ∈ found, t.Eligible scope site e.2
  slots : (found.map (·.2.slot)).Nodup
  ordered : found.Pairwise fun e f => e.1.Before f.1
  first : ∀ p m, t.Stored type p m → t.Eligible scope site m →
    ∃ e ∈ found, e.2.slot = m.slot ∧ (e.1 = p ∨ e.1.Before p)

/-- What a query finds are the first declarations that count. -/
theorem firstDeclared_of_visibleMembers {ms : List Member}
    (h : t.visibleMembers scope site type = .ok ms) :
    ∃ found, found.map (·.2) = ms ∧ t.FirstDeclared scope site type found := by
  obtain ⟨-, rfl⟩ := visibleMembers_eq_ok_iff.1 h
  obtain ⟨found, hsub, hmap, hfirst⟩ :=
    Member.exists_firstOfSlots Prod.snd [] (t.candidates scope site type)
  have hfound : ∀ e ∈ found, t.Stored type e.1 e.2 ∧ t.Eligible scope site e.2 :=
    fun e he => mem_candidates_iff.1 (hsub.subset he)
  refine ⟨found, hmap, ?_⟩
  constructor
  case stored => exact fun e he => (hfound e he).1
  case eligible => exact fun e he => (hfound e he).2
  case slots =>
    have hslots : found.map (·.2.slot) = (found.map (·.2)).map Member.slot := by
      rw [List.map_map]
      rfl
    rw [hslots, hmap]
    exact Member.nodup_slots_firstOfSlots [] _
  case ordered => exact pairwise_candidates.sublist hsub
  case first =>
    intro p m hp hm
    obtain ⟨e, he, hslot, hbefore⟩ :=
      hfirst (p, m) (mem_candidates_iff.2 ⟨hp, hm⟩) List.not_mem_nil
    refine ⟨e, he, hslot, ?_⟩
    rcases hbefore with rfl | hrow
    · exact .inl rfl
    · have hpair := pairwise_candidates.sublist hrow
      rw [List.pairwise_pair] at hpair
      exact .inr hpair

/-- **Visible members are the first declarations that count.** A query for the
members of a type fails exactly if the type has no full name under its
dimensions, or that name is not declared; types above it need not be. Else it
finds the members that are the first of their slots among those that count,
in the order in which the type and its supertypes store them. -/
theorem visibleMembers_first (t : TypeTable) (scope : MemberScope) (site : Site)
    (type : JavaType) :
    ((∃ e, t.visibleMembers scope site type = .error e) ↔
      type.elementType.erasure? = none ∨
        ∃ root, type.elementType.erasure? = some root ∧ root ∉ t.names) ∧
    ∀ ms, t.visibleMembers scope site type = .ok ms →
      ∃ found, found.map (·.2) = ms ∧ t.FirstDeclared scope site type found := by
  refine ⟨?_, fun ms => firstDeclared_of_visibleMembers⟩
  have hfails : (∃ e, t.visibleMembers scope site type = .error e) ↔
      ¬ ∃ root, type.elementType.erasure? = some root ∧ root ∈ t.names := by
    constructor
    · rintro ⟨e, he⟩ hroot
      obtain ⟨ms, hms⟩ : ∃ ms, t.visibleMembers scope site type = .ok ms :=
        ⟨_, visibleMembers_eq_ok_iff.2 ⟨hroot, rfl⟩⟩
      rw [he] at hms
      cases hms
    · intro hroot
      cases hquery : t.visibleMembers scope site type with
      | error e => exact ⟨e, rfl⟩
      | ok ms => exact absurd (visibleMembers_eq_ok_iff.1 hquery).1 hroot
  rw [hfails]
  cases type.elementType.erasure? <;> simp

end TypeTable

namespace Heirs

def called (owner : String) : Member := .method owner "name" [] (.named "p.Name")

def key : Member := { Member.field "p.Child" "key" (.named "p.Key") with modifiers := ["private"] }

def count : Member := .field "p.Parent" "count" (.plain "int")

def size : Member := .method "p.Parent" "size" [] (.plain "int")

def label : Member := .field "p.Named" "label" (.named "p.Name")

/-- A class and its parent, which extends it in turn; an interface between them
and one more is not declared. -/
def table : TypeTable := .ofDecls [
  { name := "p.Child", superclass := some "p.Parent", interfaces := ["p.Missing"],
    members := [key, called "p.Child"] },
  { name := "p.Parent", superclass := some "p.Child", interfaces := ["p.Named"],
    members := [called "p.Parent", size, count] },
  { name := "p.Named", kind := .interface, members := [label, called "p.Named"] }]

/-- Of the name, which all three declare, the first counts; the private key and
the size, a primitive, do not. What is not declared is passed over as a
supertype, but has no members of its own. -/
theorem first_heirs :
    let child : JavaType := .array (.named "p.Child") 2
    let missing : JavaType := .named "p.Missing"
    let site := Site.named "q.Caller"
    table.supertypes child = ["p.Child", "p.Parent", "p.Missing", "p.Named"] ∧
    table.visibleMembers .value site child = .ok [called "p.Child", count, label] ∧
    (∃ found, found.map (·.2) = [called "p.Child", count, label] ∧
      table.FirstDeclared .value site child found) ∧
    ∃ e, table.visibleMembers .value site missing = .error e := by
  intro child missing site
  have hquery : table.visibleMembers .value site child = .ok [called "p.Child", count, label] := rfl
  have hmissing : missing.elementType.erasure? = some "p.Missing" ∧ "p.Missing" ∉ table.names :=
    ⟨rfl, by decide⟩
  have hchild := TypeTable.visibleMembers_first table .value site child
  have hnone := TypeTable.visibleMembers_first table .value site missing
  exact ⟨by decide, hquery, hchild.2 _ hquery, hnone.1.2 (.inr ⟨"p.Missing", hmissing⟩)⟩

end Heirs

end CallChain
