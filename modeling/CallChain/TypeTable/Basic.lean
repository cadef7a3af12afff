/-
# The table of types

The declared types, in the order in which their names came in: what each is,
what it extends, and its members. A name is declared once, and every member
in the table has an owner: declaring a type again replaces the declaration in
its place, and a member that comes in without an owner gets the type it comes
in with.

Key definitions: `TypeDecl`, `TypeTable`, `TypeTable.declare`,
`TypeTable.ofDecls`, `TypeTable.implement`, `TypeTable.addMember`.
-/
import CallChain.LookupError
import CallChain.Member.Basic

namespace CallChain

/-- What a declared type is. -/
inductive TypeKind where
  | plainClass
  | interface
  | enumeration
  | annotationType
  deriving DecidableEq

/-- The declaration of a type. -/
structure TypeDecl where
  name : String
  kind : TypeKind := .plainClass
  package : Option String := none
  enclosing : Option String := none
  superclass : Option String := none
  interfaces : List String := []
  modifiers : List String := []
  members : List Member := []
  deriving DecidableEq

namespace TypeDecl

/-- A public type without members. -/
def blank (kind : TypeKind) (name : String) : TypeDecl := { name, kind, modifiers := ["public"] }

/-- The package of the type, read off its name if it is not given. -/
def packageName (d : TypeDecl) : String := d.package.getD (JavaName.package d.name)

/-- A member with an owner: its own or the given one. -/
def adopt (owner : String) (m : Member) : Member := { m with owner := some (m.owner.getD owner) }

/-- The declaration with an owner for every member. -/
def adopted (d : TypeDecl) : TypeDecl := { d with members := d.members.map (adopt d.name) }

/-- Whether every member has an owner. -/
def Owned (d : TypeDecl) : Prop := ∀ m ∈ d.members, m.owner.isSome = true

/-- The declaration with one more interface. -/
def withInterface (d : TypeDecl) (name : String) : TypeDecl :=
  { d with interfaces := d.interfaces ++ [name] }

/-- The declaration with one more member, which it owns. -/
def withMember (d : TypeDecl) (m : Member) : TypeDecl :=
  { d with members := d.members ++ [{ m with owner := some d.name }] }

@[simp]
theorem name_blank (kind : TypeKind) (name : String) : (blank kind name).name = name := rfl

@[simp]
theorem name_adopted (d : TypeDecl) : d.adopted.name = d.name := rfl

@[simp]
theorem name_withInterface (d : TypeDecl) (name : String) :
    (d.withInterface name).name = d.name := rfl

@[simp]
theorem name_withMember (d : TypeDecl) (m : Member) : (d.withMember m).name = d.name := rfl

theorem owned_adopted (d : TypeDecl) : d.adopted.Owned := by
  intro m hm
  obtain ⟨k, _, rfl⟩ := List.mem_map.1 hm
  rfl

theorem owned_blank (kind : TypeKind) (name : String) : (blank kind name).Owned := by
  intro m hm
  cases hm

theorem Owned.withInterface {d : TypeDecl} (h : d.Owned) (name : String) :
    (d.withInterface name).Owned := h

theorem Owned.withMember {d : TypeDecl} (h : d.Owned) (m : Member) : (d.withMember m).Owned := by
  intro k hk
  rcases List.mem_append.1 hk with hk | hk
  · exact h k hk
  · rw [List.mem_singleton] at hk
    subst hk
    rfl

end TypeDecl

/-- The declared types: no name twice, no member without an owner. -/
structure TypeTable where
  decls : List TypeDecl := []
  distinct : (decls.map (·.name)).Nodup := by simp
  owned : ∀ d ∈ decls, d.Owned := by simp

namespace TypeTable

/-- The names declared. -/
def names (t : TypeTable) : List String := t.decls.map (·.name)

/-- How many types are declared. -/
def size (t : TypeTable) : Nat := t.decls.length

/-- The declaration of a name. -/
def find? (t : TypeTable) (name : String) : Option TypeDecl :=
  t.decls.find? fun d => d.name == name

theorem name_of_find? {t : TypeTable} {name : String} {d : TypeDecl} (h : t.find? name = some d) :
    d.name = name := by
  simpa using List.find?_some h

theorem mem_of_find? {t : TypeTable} {name : String} {d : TypeDecl} (h : t.find? name = some d) :
    d ∈ t.decls :=
  List.mem_of_find?_eq_some h

theorem find?_of_mem {t : TypeTable} {d : TypeDecl} (h : d ∈ t.decls) : t.find? d.name = some d := by
  obtain ⟨before, after, hsplit⟩ := List.append_of_mem h
  have hdistinct := t.distinct
  rw [hsplit, List.map_append, List.map_cons, List.nodup_append] at hdistinct
  refine List.find?_eq_some_iff_append.2 ⟨beq_self_eq_true _, before, after, hsplit, ?_⟩
  intro e he
  have hne : e.name ≠ d.name :=
    hdistinct.2.2 e.name (List.mem_map_of_mem he) d.name List.mem_cons_self
  simp [hne]

theorem find?_eq_none {t : TypeTable} {name : String} (h : name ∉ t.names) :
    t.find? name = none := by
  refine List.find?_eq_none.2 fun d hd => ?_
  have hne : d.name ≠ name := fun he => h (he ▸ List.mem_map_of_mem hd)
  simp [hne]

theorem map_name_revised {name : String} {f : TypeDecl → TypeDecl}
    (keepsName : ∀ d, d.name = name → (f d).name = name) (ds : List TypeDecl) :
    (ds.map fun d => if d.name = name then f d else d).map (·.name) = ds.map (·.name) := by
  rw [List.map_map]
  apply List.map_congr_left
  intro d _
  by_cases h : d.name = name
  · simp [h, keepsName d h]
  · simp [h]

/-- The table with the declaration of a name changed in its place. -/
def revise (t : TypeTable) (name : String) (f : TypeDecl → TypeDecl)
    (keepsName : ∀ d, d.name = name → (f d).name = name)
    (keepsOwned : ∀ d, d.name = name → d.Owned → (f d).Owned) : TypeTable where
  decls := t.decls.map fun d => if d.name = name then f d else d
  distinct := by
    rw [map_name_revised keepsName]
    exact t.distinct
  owned := by
    intro d hd
    obtain ⟨e, he, rfl⟩ := List.mem_map.1 hd
    by_cases h : e.name = name
    · simpa [h] using keepsOwned e h (t.owned e he)
    · simpa [h] using t.owned e he

@[simp]
theorem names_revise (t : TypeTable) (name : String) (f : TypeDecl → TypeDecl)
    (keepsName : ∀ d, d.name = name → (f d).name = name)
    (keepsOwned : ∀ d, d.name = name → d.Owned → (f d).Owned) :
    (t.revise name f keepsName keepsOwned).names = t.names :=
  map_name_revised keepsName t.decls

/-- The table with one more declaration, of a name that is not declared. -/
def append (t : TypeTable) (d : TypeDecl) (new : d.name ∉ t.names) (owned : d.Owned) :
    TypeTable where
  decls := t.decls ++ [d]
  distinct := by
    rw [List.map_append, List.nodup_append]
    refine ⟨t.distinct, by simp, ?_⟩
    intro a ha b hb
    rw [List.map_cons, List.map_nil, List.mem_singleton] at hb
    subst hb
    intro h
    subst h
    exact new ha
  owned := by
    intro e he
    rcases List.mem_append.1 he with h | h
    · exact t.owned e h
    · rw [List.mem_singleton] at h
      subst h
      exact owned

@[simp]
theorem names_append (t : TypeTable) (d : TypeDecl) (new : d.name ∉ t.names) (owned : d.Owned) :
    (t.append d new owned).names = t.names ++ [d.name] := by
  simp [names, append]

/-- The table with a type declared, in place of the declaration that its name
had, if it had one. -/
def declare (t : TypeTable) (d : TypeDecl) : TypeTable :=
  if h : d.name ∈ t.names then
    t.revise d.name (fun _ => d.adopted) (fun _ _ => d.name_adopted) (fun _ _ _ => d.owned_adopted)
  else t.append d.adopted (by rwa [TypeDecl.name_adopted]) d.owned_adopted

theorem mem_names_declare {t : TypeTable} {d : TypeDecl} {n : String} :
    n ∈ (t.declare d).names ↔ n ∈ t.names ∨ n = d.name := by
  unfold declare
  split
  · rename_i h
    rw [names_revise]
    constructor
    · exact Or.inl
    · rintro (hn | rfl)
      · exact hn
      · exact h
  · rw [names_append, List.mem_append, List.mem_singleton, TypeDecl.name_adopted]

/-- The table of declarations that come in one after the other. -/
def ofDecls (ds : List TypeDecl) : TypeTable := ds.foldl declare {}

theorem mem_names_ofDecls {ds : List TypeDecl} {n : String} :
    n ∈ (ofDecls ds).names ↔ n ∈ ds.map (·.name) := by
  have from_ : ∀ t : TypeTable,
      n ∈ (ds.foldl declare t).names ↔ n ∈ t.names ∨ n ∈ ds.map (·.name) := by
    induction ds with
    | nil => simp
    | cons d ds ih =>
      intro t
      rw [List.foldl_cons, ih, mem_names_declare, List.map_cons, List.mem_cons, or_assoc]
  rw [ofDecls, from_]
  simp [names]

/-- The table in which a name is declared, as an empty type if it was not. -/
def ensure (t : TypeTable) (kind : TypeKind) (name : String) : TypeTable :=
  if h : name ∈ t.names then t
  else t.append (.blank kind name) (by rwa [TypeDecl.name_blank]) (TypeDecl.owned_blank kind name)

theorem mem_names_ensure {t : TypeTable} {kind : TypeKind} {name n : String} :
    n ∈ (t.ensure kind name).names ↔ n ∈ t.names ∨ n = name := by
  unfold ensure
  split
  · rename_i h
    constructor
    · exact Or.inl
    · rintro (hn | rfl)
      · exact hn
      · exact h
  · rw [names_append, List.mem_append, List.mem_singleton, TypeDecl.name_blank]

/-- The table with an interface added to those of a type; both are declared
if they were not. -/
def implement (t : TypeTable) (type interface : String) : TypeTable :=
  ((t.ensure .interface interface).ensure .plainClass type).revise type
    (·.withInterface interface) (fun d h => by rwa [TypeDecl.name_withInterface])
    (fun _ _ h => h.withInterface interface)

theorem mem_names_implement {t : TypeTable} {type interface n : String} :
    n ∈ (t.implement type interface).names ↔ n ∈ t.names ∨ n = interface ∨ n = type := by
  rw [implement, names_revise, mem_names_ensure, mem_names_ensure, or_assoc]

/-- The table with a member added to a type, which becomes its owner; the
type is declared if it was not. -/
def addMember (t : TypeTable) (type : String) (m : Member) : TypeTable :=
  (t.ensure .plainClass type).revise type (·.withMember m)
    (fun d h => by rwa [TypeDecl.name_withMember]) (fun _ _ h => h.withMember m)

theorem mem_names_addMember {t : TypeTable} {type : String} {m : Member} {n : String} :
    n ∈ (t.addMember type m).names ↔ n ∈ t.names ∨ n = type := by
  rw [addMember, names_revise, mem_names_ensure]

/-- The members declared in a type. -/
def declared (t : TypeTable) (name : String) : Except LookupError (List Member) :=
  match t.find? name with
  | some d => .ok d.members
  | none => .error (.unresolvedType name)

/-- What a type extends as a class: what its declaration says, else the type
above all classes if that is declared, except for interfaces and itself. -/
def superclass? (t : TypeTable) (name : String) : Option String :=
  match t.find? name with
  | none => none
  | some d =>
    match d.superclass with
    | some s => some s
    | none =>
      if d.kind ≠ .interface ∧ name ≠ JavaName.object ∧ JavaName.object ∈ t.names then
        some JavaName.object
      else none

/-- The interfaces that a type names. -/
def interfaces (t : TypeTable) (name : String) : List String :=
  match t.find? name with
  | some d => d.interfaces
  | none => []

end TypeTable

end CallChain
