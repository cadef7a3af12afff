/-
# What a table answers depends on what is declared

However a table came about, it has each of its types under the name of that
type, every member in it has an owner, and it has as many types as names came in
since it was last loaded. Nothing else of its history counts: two tables with
the same declarations answer every question alike, in whichever order they hold
them, and so do all searches on them. For declarations that are loaded this says
that of several for one name only the last counts, and their order not at all.

Key definitions: `TableChange.sinceLoad`, `TableChange.introduced`,
`TypeDecl.lastOfEach`, `TypeTable.AnswersAlike`.
Key theorems: `TypeTable.mem_names_afterChanges`, `TypeTable.decls_ofDecls_perm`,
`TypeTable.answersAlike_of_perm`, `TypeTable.answers_by_declarations`.
-/
import CallChain.Completion.Complete
import CallChain.Proofs.Search.Termination
import CallChain.TypeTable.Changes

namespace CallChain

/-! ### The names that came in -/

namespace TableChange

/-- The last load among changes with those after it; all of them if none is a
load. -/
def sinceLoad : List TableChange → List TableChange
  | [] => []
  | c :: cs => if cs.any isLoad then sinceLoad cs else c :: cs

/-- The names that changes bring in, without those before the last load. -/
def introduced (cs : List TableChange) : List String := (sinceLoad cs).flatMap mentions

theorem sinceLoad_of_no_load : ∀ {cs : List TableChange}, cs.any isLoad = false → sinceLoad cs = cs
  | [], _ => rfl
  | c :: cs, h => by
    rw [List.any_cons, Bool.or_eq_false_iff] at h
    rw [sinceLoad, if_neg (by simp [h.2])]

end TableChange

namespace TypeTable

/-- After changes the names are declared that they have brought in, and those
declared before if none of them is a load. -/
theorem mem_names_afterChanges {cs : List TableChange} {n : String} : ∀ {t : TypeTable},
    n ∈ (t.afterChanges cs).names ↔
      (cs.any TableChange.isLoad = false ∧ n ∈ t.names) ∨ n ∈ TableChange.introduced cs := by
  induction cs with
  | nil => simp [afterChanges, TableChange.introduced, TableChange.sinceLoad]
  | cons c cs ih =>
    intro t
    have hstep : t.afterChanges (c :: cs) = (c.apply t).afterChanges cs := rfl
    rw [hstep, ih, TableChange.mem_names_apply]
    cases hload : cs.any TableChange.isLoad with
    | true => simp [TableChange.introduced, TableChange.sinceLoad, hload]
    | false =>
      have hall : TableChange.sinceLoad cs = cs := TableChange.sinceLoad_of_no_load hload
      simp [TableChange.introduced, TableChange.sinceLoad, hload, hall, or_assoc]

theorem size_eq_card (t : TypeTable) : t.size = t.names.toFinset.card := by
  have hnodup : t.names.Nodup := t.distinct
  rw [List.toFinset_card_of_nodup hnodup, names, List.length_map, size]

theorem size_afterChanges (cs : List TableChange) :
    (({} : TypeTable).afterChanges cs).size = (TableChange.introduced cs).toFinset.card := by
  have hnames : (({} : TypeTable).afterChanges cs).names.toFinset =
      (TableChange.introduced cs).toFinset := by
    ext n
    rw [List.mem_toFinset, List.mem_toFinset, mem_names_afterChanges]
    simp [names]
  rw [size_eq_card, hnames]

/-! ### What is declared -/

theorem find?_eq_some_iff {t : TypeTable} {name : String} {d : TypeDecl} :
    t.find? name = some d ↔ d ∈ t.decls ∧ d.name = name := by
  constructor
  · exact fun h => ⟨mem_of_find? h, name_of_find? h⟩
  · rintro ⟨hd, rfl⟩
    exact find?_of_mem hd

theorem nodup_decls (t : TypeTable) : t.decls.Nodup := t.distinct.of_map _

/-- Whether a member in a table may be used hangs on its owner. -/
theorem isVisible_of_mem {t : TypeTable} {d : TypeDecl} (hd : d ∈ t.decls) {m : Member}
    (hm : m ∈ d.members) (site : Site) : ∃ owner, m.owner = some owner ∧
      t.isVisible site m = (owner == site.type || t.isInterface owner ||
        t.grants site owner m.access) := by
  obtain ⟨owner, howner⟩ := Option.isSome_iff_exists.1 (t.owned d hd m hm)
  exact ⟨owner, howner, by rw [isVisible, howner]⟩

end TypeTable

/-- The declarations that no other of the same name follows. -/
def TypeDecl.lastOfEach : List TypeDecl → List TypeDecl
  | [] => []
  | d :: ds => if d.name ∈ ds.map (·.name) then lastOfEach ds else d :: lastOfEach ds

namespace TypeDecl

theorem sublist_lastOfEach : ∀ ds : List TypeDecl, (lastOfEach ds).Sublist ds
  | [] => .slnil
  | d :: ds => by
    rw [lastOfEach]
    split
    · exact (sublist_lastOfEach ds).cons d
    · exact (sublist_lastOfEach ds).cons_cons d

theorem nodup_lastOfEach : ∀ ds : List TypeDecl, ((lastOfEach ds).map (·.name)).Nodup
  | [] => List.nodup_nil
  | d :: ds => by
    rw [lastOfEach]
    split
    · exact nodup_lastOfEach ds
    · rename_i hlast
      rw [List.map_cons, List.nodup_cons]
      refine ⟨fun h => hlast ?_, nodup_lastOfEach ds⟩
      exact ((sublist_lastOfEach ds).map _).subset h

theorem lastOfEach_of_nodup : ∀ {ds : List TypeDecl}, (ds.map (·.name)).Nodup → lastOfEach ds = ds
  | [], _ => rfl
  | d :: ds, h => by
    rw [List.map_cons, List.nodup_cons] at h
    rw [lastOfEach, if_neg h.1, lastOfEach_of_nodup h.2]

end TypeDecl

namespace TypeTable

theorem mem_decls_revise {t : TypeTable} {name : String} {f : TypeDecl → TypeDecl}
    {keepsName : ∀ d, d.name = name → (f d).name = name}
    {keepsOwned : ∀ d, d.name = name → d.Owned → (f d).Owned} {e : TypeDecl} :
    e ∈ (t.revise name f keepsName keepsOwned).decls ↔
      (∃ d ∈ t.decls, d.name = name ∧ f d = e) ∨ (e ∈ t.decls ∧ e.name ≠ name) := by
  rw [revise, List.mem_map]
  constructor
  · rintro ⟨d, hd, rfl⟩
    by_cases h : d.name = name
    · exact .inl ⟨d, hd, h, by simp [h]⟩
    · exact .inr (by simp [h, hd])
  · rintro (⟨d, hd, h, rfl⟩ | ⟨he, h⟩)
    · exact ⟨d, hd, by simp [h]⟩
    · exact ⟨e, he, by simp [h]⟩

/-- A type that is declared takes the place of what its name was declared as
before. -/
theorem mem_decls_declare {t : TypeTable} {d e : TypeDecl} :
    e ∈ (t.declare d).decls ↔ e = d.adopted ∨ (e ∈ t.decls ∧ e.name ≠ d.name) := by
  unfold declare
  split
  · rename_i h
    obtain ⟨k, hk, hname⟩ := List.mem_map.1 h
    rw [mem_decls_revise]
    constructor
    · rintro (⟨-, -, -, rfl⟩ | h)
      · exact .inl rfl
      · exact .inr h
    · rintro (rfl | h)
      · exact .inl ⟨k, hk, hname, rfl⟩
      · exact .inr h
  · rename_i h
    rw [append, List.mem_append, List.mem_singleton, or_comm]
    refine or_congr_right ⟨fun he => ⟨he, fun hname => h ?_⟩, And.left⟩
    exact hname ▸ List.mem_map_of_mem he

/-- A declaration is there after others came in if it was before and none of them
has its name, or if it is one of them and no other of its name follows. -/
theorem mem_decls_foldl_declare {ds : List TypeDecl} {e : TypeDecl} : ∀ {t : TypeTable},
    e ∈ (ds.foldl declare t).decls ↔ (e ∈ t.decls ∧ e.name ∉ ds.map (·.name)) ∨
      e ∈ (TypeDecl.lastOfEach ds).map TypeDecl.adopted := by
  induction ds with
  | nil => simp [TypeDecl.lastOfEach]
  | cons d ds ih =>
    intro t
    rw [List.foldl_cons, ih, mem_decls_declare, TypeDecl.lastOfEach, List.map_cons, List.mem_cons,
      not_or]
    split
    · rename_i hlater
      constructor
      · rintro (⟨rfl | ⟨he, hne⟩, hlast⟩ | h)
        · exact absurd hlater hlast
        · exact .inl ⟨he, hne, hlast⟩
        · exact .inr h
      · rintro (⟨he, hne, hlast⟩ | h)
        · exact .inl ⟨.inr ⟨he, hne⟩, hlast⟩
        · exact .inr h
    · rename_i hlast
      rw [List.map_cons, List.mem_cons]
      constructor
      · rintro (⟨rfl | ⟨he, hne⟩, hlater⟩ | h)
        · exact .inr (.inl rfl)
        · exact .inl ⟨he, hne, hlater⟩
        · exact .inr (.inr h)
      · rintro (⟨he, hne, hlater⟩ | rfl | h)
        · exact .inl ⟨.inr ⟨he, hne⟩, hlater⟩
        · exact .inl ⟨.inl rfl, hlast⟩
        · exact .inr h

theorem mem_decls_ofDecls {ds : List TypeDecl} {e : TypeDecl} :
    e ∈ (ofDecls ds).decls ↔ e ∈ (TypeDecl.lastOfEach ds).map TypeDecl.adopted := by
  rw [ofDecls, mem_decls_foldl_declare]
  simp

/-- A table holds what it is made of, but for what is declared again, in some
order. -/
theorem decls_ofDecls_perm (ds : List TypeDecl) :
    (ofDecls ds).decls.Perm ((TypeDecl.lastOfEach ds).map TypeDecl.adopted) := by
  have hnodup : ((TypeDecl.lastOfEach ds).map TypeDecl.adopted).Nodup := by
    apply List.Nodup.of_map (·.name)
    rw [List.map_map]
    exact TypeDecl.nodup_lastOfEach ds
  exact (List.perm_ext_iff_of_nodup (nodup_decls _) hnodup).2 fun e => mem_decls_ofDecls

theorem decls_ofDecls_perm_of_nodup {ds : List TypeDecl} (distinct : (ds.map (·.name)).Nodup) :
    (ofDecls ds).decls.Perm (ds.map TypeDecl.adopted) := by
  have hperm := decls_ofDecls_perm ds
  rwa [TypeDecl.lastOfEach_of_nodup distinct] at hperm

/-! ### Tables that answer alike -/

/-- Two tables answer every question alike: what is declared, and what follows
from it for types and for the members that a site may use. Every search goes by
the same facts and is interrupted at the same places, also where the tables go
wrong in the same way, and so comes to the same chains and status. -/
structure AnswersAlike (t u : TypeTable) : Prop where
  size : t.size = u.size
  find? : t.find? = u.find?
  superclass? : t.superclass? = u.superclass?
  interfaces : t.interfaces = u.interfaces
  declared : t.declared = u.declared
  supertypes : t.supertypes = u.supertypes
  assignable : t.assignable = u.assignable
  outermost : t.outermost = u.outermost
  site? : t.site? = u.site?
  isVisible : t.isVisible = u.isVisible
  visibleMembers : t.visibleMembers = u.visibleMembers
  facts : ∀ h : Hazards, h.facts t = h.facts u
  interruptions : ∀ h : Hazards, h.interruptions t = h.interruptions u
  supervisedInterruptions : ∀ h : Hazards, h.supervisedInterruptions t = h.supervisedInterruptions u
  search : ∀ (h : Hazards) (site : Site) (L : Limits) (I : Interruptions) (starts : List Link)
    (types : List JavaType),
    (h.facts t site).search L I starts types = (h.facts u site).search L I starts types
  supervisedSearch : ∀ (h : Hazards) (site : Site) (L : Limits) (I : Interruptions)
    (starts : List Link) (types : List JavaType),
    (h.facts t site).supervisedSearch L I starts types =
      (h.facts u site).supervisedSearch L I starts types
  complete : ∀ (h : Hazards) (settings : Settings) (r : Request),
    complete t h settings r = complete u h settings r

section Perm

variable {t u : TypeTable}

theorem find?_of_perm (same : t.decls.Perm u.decls) : t.find? = u.find? := by
  funext name
  refine Option.ext fun d => ?_
  rw [find?_eq_some_iff, find?_eq_some_iff, same.mem_iff]

theorem mem_names_of_perm (same : t.decls.Perm u.decls) (name : String) :
    name ∈ t.names ↔ name ∈ u.names :=
  (same.map _).mem_iff

theorem superclass?_of_perm (same : t.decls.Perm u.decls) : t.superclass? = u.superclass? := by
  funext name
  simp only [superclass?, find?_of_perm same, mem_names_of_perm same]

theorem interfaces_of_perm (same : t.decls.Perm u.decls) : t.interfaces = u.interfaces := by
  funext name
  simp only [interfaces, find?_of_perm same]

theorem declared_of_perm (same : t.decls.Perm u.decls) : t.declared = u.declared := by
  funext name
  simp only [declared, find?_of_perm same]

theorem climb_of_perm (same : t.decls.Perm u.decls) (rounds : Nat) (seen round : List String) :
    t.climb rounds seen round = u.climb rounds seen round := by
  have hparents : t.parents = u.parents := by
    funext name
    rw [parents, parents, superclass?_of_perm same, interfaces_of_perm same]
  induction rounds generalizing seen round with
  | zero => rfl
  | succ rounds ih => simp only [climb, hparents, ih]

theorem supertypes_of_perm (same : t.decls.Perm u.decls) : t.supertypes = u.supertypes := by
  funext type
  simp only [supertypes, size, same.length_eq, climb_of_perm same]

theorem outward_of_perm (same : t.decls.Perm u.decls) (steps : Nat) (name : String) :
    t.outward steps name = u.outward steps name := by
  induction steps generalizing name with
  | zero => rfl
  | succ steps ih => simp only [outward, find?_of_perm same, ih]

theorem outermost_of_perm (same : t.decls.Perm u.decls) : t.outermost = u.outermost := by
  funext name
  rw [outermost, outermost, outward_of_perm same]

theorem site?_of_perm (same : t.decls.Perm u.decls) : t.site? = u.site? := by
  funext name
  rw [site?, site?, find?_of_perm same, outermost_of_perm same]

theorem isVisible_of_perm (same : t.decls.Perm u.decls) : t.isVisible = u.isVisible := by
  have hgrants : t.grants = u.grants := by
    funext site owner access
    cases access <;> simp only [grants, package, find?_of_perm same, supertypes_of_perm same,
      outermost_of_perm same]
  funext site m
  simp only [isVisible, isInterface, find?_of_perm same, hgrants]

theorem membersBy_of_perm (same : t.decls.Perm u.decls) : t.membersBy = u.membersBy := by
  funext declared scope site type
  simp only [membersBy, supertypes_of_perm same, isVisible_of_perm same]

theorem assignable_of_perm (same : t.decls.Perm u.decls) : t.assignable = u.assignable := by
  funext a b
  rw [TypeTable.assignable, TypeTable.assignable, supertypes_of_perm same]

end Perm

end TypeTable

namespace Hazards

variable {t u : TypeTable}

theorem declared_of_perm (h : Hazards) (same : t.decls.Perm u.decls) : h.declared t = h.declared u := by
  funext name
  rw [declared, declared, TypeTable.declared_of_perm same]

theorem facts_of_perm (h : Hazards) (same : t.decls.Perm u.decls) : h.facts t = h.facts u := by
  funext site
  simp only [facts, h.declared_of_perm same, TypeTable.membersBy_of_perm same,
    TypeTable.assignable_of_perm same]

theorem consulted_of_perm (h : Hazards) (same : t.decls.Perm u.decls) :
    h.consulted t = h.consulted u := by
  funext type
  simp only [consulted, h.declared_of_perm same, TypeTable.supertypes_of_perm same]

theorem interruptions_of_perm (h : Hazards) (same : t.decls.Perm u.decls) :
    h.interruptions t = h.interruptions u := by
  funext budget cancelled
  simp only [interruptions, h.consulted_of_perm same]

theorem supervisedInterruptions_of_perm (h : Hazards) (same : t.decls.Perm u.decls) :
    h.supervisedInterruptions t = h.supervisedInterruptions u := by
  funext budget
  simp only [supervisedInterruptions, h.consulted_of_perm same]

end Hazards

namespace TypeTable

/-- Tables that hold the same declarations answer alike. -/
theorem answersAlike_of_perm {t u : TypeTable} (same : t.decls.Perm u.decls) : t.AnswersAlike u where
  size := same.length_eq
  find? := find?_of_perm same
  superclass? := superclass?_of_perm same
  interfaces := interfaces_of_perm same
  declared := declared_of_perm same
  supertypes := supertypes_of_perm same
  assignable := assignable_of_perm same
  outermost := outermost_of_perm same
  site? := site?_of_perm same
  isVisible := isVisible_of_perm same
  visibleMembers := by
    funext scope site type
    rw [visibleMembers, visibleMembers, membersBy_of_perm same, declared_of_perm same]
  facts h := h.facts_of_perm same
  interruptions h := h.interruptions_of_perm same
  supervisedInterruptions h := h.supervisedInterruptions_of_perm same
  search h site L I starts types := by rw [h.facts_of_perm same]
  supervisedSearch h site L I starts types := by rw [h.facts_of_perm same]
  complete h settings r := by
    rw [CallChain.complete, CallChain.complete, site?_of_perm same, h.facts_of_perm same,
      h.supervisedInterruptions_of_perm same]

/-- Of several declarations for one name only the last counts. -/
theorem answersAlike_lastOfEach (ds : List TypeDecl) :
    (ofDecls ds).AnswersAlike (ofDecls (TypeDecl.lastOfEach ds)) := by
  have hall := decls_ofDecls_perm ds
  have hlast := decls_ofDecls_perm_of_nodup (TypeDecl.nodup_lastOfEach ds)
  exact answersAlike_of_perm (hall.trans hlast.symm)

/-- The order of declarations for different names does not count. -/
theorem answersAlike_ofDecls_of_perm {ds es : List TypeDecl} (reordered : ds.Perm es)
    (distinct : (ds.map (·.name)).Nodup) : (ofDecls ds).AnswersAlike (ofDecls es) := by
  have hds := decls_ofDecls_perm_of_nodup distinct
  have hes := decls_ofDecls_perm_of_nodup ((reordered.map _).nodup_iff.1 distinct)
  exact answersAlike_of_perm ((hds.trans (reordered.map _)).trans hes.symm)

/-- **What a table answers depends on what is declared.** After any changes of an
empty table each type is found under its own name and no other, every member in
the table has an owner, on which it hangs whether a site may use it, and there
are as many types as different names came in with the last load and the changes
after it. Declarations that are loaded count as if there were only the last one
for each name; and if each name has one declaration, their order changes no
answer and no search. -/
theorem answers_by_declarations (cs : List TableChange) (ds es : List TypeDecl) :
    (∀ name d, (({} : TypeTable).afterChanges cs).find? name = some d ↔
      d ∈ (({} : TypeTable).afterChanges cs).decls ∧ d.name = name) ∧
    (∀ d ∈ (({} : TypeTable).afterChanges cs).decls, ∀ m ∈ d.members, ∀ site,
      ∃ owner, m.owner = some owner ∧
        (({} : TypeTable).afterChanges cs).isVisible site m = (owner == site.type ||
          (({} : TypeTable).afterChanges cs).isInterface owner ||
          (({} : TypeTable).afterChanges cs).grants site owner m.access)) ∧
    (({} : TypeTable).afterChanges cs).size = (TableChange.introduced cs).toFinset.card ∧
    (((TypeDecl.lastOfEach ds).map (·.name)).Nodup ∧
      (ofDecls ds).AnswersAlike (ofDecls (TypeDecl.lastOfEach ds))) ∧
    (ds.Perm es → (ds.map (·.name)).Nodup → (ofDecls ds).AnswersAlike (ofDecls es)) :=
  ⟨fun _ _ => find?_eq_some_iff, fun _ hd _ hm site => isVisible_of_mem hd hm site,
    size_afterChanges cs, ⟨TypeDecl.nodup_lastOfEach ds, answersAlike_lastOfEach ds⟩,
    answersAlike_ofDecls_of_perm⟩

end TypeTable

namespace Ring

/-- The two types of the ring, the second of them declared first, and before it
another type of the same name. -/
def declarations : List TypeDecl := [
  { name := "B", members := [.field "B" "lost" (.named "A")] },
  { name := "B", superclass := some "A", members := [.field "B" "a" (.named "A")] },
  { name := "A", superclass := some "B", members := [.field "A" "b" (.named "B")] }]

/-- Changes before and after the ring is loaded. -/
def changes : List TableChange := [
  .addField "C" "old" (.named "A"),
  .load declarations,
  .implement "A" "I",
  .addMethod "C" "make" (.named "B"),
  .addInterface "I"]

/-- The ring answers as it does if its types are declared once and the other
way round. -/
theorem turned_ring :
    (({} : TypeTable).afterChanges changes).size = 4 ∧
    TypeDecl.lastOfEach declarations = declarations.tail ∧
    (TypeTable.ofDecls declarations.tail).AnswersAlike
      (TypeTable.ofDecls declarations.tail.reverse) ∧
    (((TypeTable.ofDecls declarations).facts (.named "A")).search limits .none
      [Circle.start "x"] [.named "B"]).chains.map Chain.printed =
      ["x", "x.b", "x.a", "x.b.a", "x.a.b"] := by
  obtain ⟨-, -, hsize, ⟨-, hlast⟩, -⟩ :=
    TypeTable.answers_by_declarations changes declarations declarations
  obtain ⟨-, -, -, -, hturned⟩ :=
    TypeTable.answers_by_declarations [] declarations.tail declarations.tail.reverse
  have hlastOfEach : TypeDecl.lastOfEach declarations = declarations.tail := by decide
  rw [hlastOfEach] at hlast
  have halike := hturned (List.reverse_perm _).symm (by decide)
  refine ⟨?_, hlastOfEach, halike, ?_⟩
  · rw [hsize]
    decide
  · rw [← Hazards.facts_none, hlast.search, halike.search]
    decide

end Ring

end CallChain
