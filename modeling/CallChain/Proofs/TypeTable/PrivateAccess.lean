/-
# Who shares private members

Private members are shared by the types inside one outermost type. Which
outermost type a site is in is asked of the table if its type is declared. A
site in a type that is not declared takes the type for its own outermost one,
which is right unless the name has a `$` (`eq_outermost_siteOf_iff`). So the
private members of a type may be used from the type itself and from the sites
in its outermost type that are placed rightly, and from no others
(`isVisible_private_iff`): a nested type of which nothing but the name is known
is left out.

Key definition: `TypeTable.Places`.
Key theorems: `TypeTable.eq_outermost_siteOf_iff`, `TypeTable.isVisible_private_iff`.
-/
import CallChain.Proofs.Text.Marks
import CallChain.TypeTable.Access

namespace CallChain

namespace TypeTable

variable {t : TypeTable}

theorem outermost_of_not_mem {name : String} (h : name ∉ t.names) :
    t.outermost name = JavaName.outermost name := by
  rw [outermost, maxNesting, outward, find?_eq_none h]
  rfl

/-- No outermost type has the name of a nested one. -/
theorem avoids_outermost (t : TypeTable) (name : String) :
    Text.Avoids (· == '$') (t.outermost name) :=
  Text.avoids_beforeFirst '$' _

theorem site?_of_mem {name : String} (h : name ∈ t.names) :
    ∃ package, t.site? name = some { type := name, package, outermost := t.outermost name } := by
  obtain ⟨d, hd, rfl⟩ := List.mem_map.1 h
  rw [site?, find?_of_mem hd]
  exact ⟨d.packageName, rfl⟩

theorem siteOf_of_not_mem {name : String} (h : name ∉ t.names) : t.siteOf name = .named name := by
  rw [siteOf, site?, find?_eq_none h]
  rfl

theorem type_siteOf (t : TypeTable) (name : String) : (t.siteOf name).type = name := by
  by_cases h : name ∈ t.names
  · obtain ⟨package, hsite⟩ := site?_of_mem h
    rw [siteOf, hsite]
    rfl
  · rw [siteOf_of_not_mem h]
    rfl

/-- What is known of a type places it: it is declared, or it is not nested. -/
def Places (t : TypeTable) (name : String) : Prop :=
  name ∈ t.names ∨ Text.Avoids (· == '$') name

/-- A site is in the outermost type of its type if that is placed, and else in
no outermost type. -/
theorem eq_outermost_siteOf_iff {owner name : String} :
    t.outermost owner = (t.siteOf name).outermost ↔
      t.outermost owner = t.outermost name ∧ t.Places name := by
  by_cases declared : name ∈ t.names
  · obtain ⟨package, hsite⟩ := site?_of_mem declared
    have hplaces : t.Places name := .inl declared
    rw [siteOf, hsite, Option.getD_some]
    exact ⟨fun h => ⟨h, hplaces⟩, And.left⟩
  · rw [siteOf_of_not_mem declared, outermost_of_not_mem declared]
    -- The site takes its type for an outermost one, and no outermost type has a `$`.
    show t.outermost owner = name ↔ _
    constructor
    · intro h
      have hname : Text.Avoids (· == '$') name := h ▸ avoids_outermost t owner
      exact ⟨by rw [h, JavaName.outermost, Text.beforeFirst_of_avoids hname], .inr hname⟩
    · rintro ⟨h, placed⟩
      rw [h, JavaName.outermost, Text.beforeFirst_of_avoids (placed.resolve_left declared)]

/-- **Private members are shared within an outermost type**, by its types that
are declared or not nested. Every type may use its own. -/
theorem isVisible_private_iff {m : Member} {owner : String} (name : String)
    (owned : m.owner = some owner) (isPrivate : m.access = .sameType)
    (noInterface : t.isInterface owner = false) :
    t.isVisible (t.siteOf name) m = true ↔
      owner = name ∨ t.outermost owner = t.outermost name ∧ t.Places name := by
  rw [← eq_outermost_siteOf_iff]
  simp [isVisible, owned, isPrivate, noInterface, grants, type_siteOf]

end TypeTable

namespace Annex

def safe : Member := { Member.field "p.House" "safe" (.named "p.Gold") with modifiers := ["private"] }

/-- A class with a private field, a shed in it that is not declared, and a box in
the shed that is. -/
def table : TypeTable := .ofDecls [
  { name := "p.House", members := [safe] },
  { name := "p.House$Shed$Box", enclosing := some "p.House$Shed" }]

/-- From the box the field may be used. -/
theorem box_shares :
    safe.owner = some "p.House" ∧ safe.access = .sameType ∧
    table.isInterface "p.House" = false ∧
    (table.isVisible (table.siteOf "p.House$Shed$Box") safe = true ↔
      "p.House" = "p.House$Shed$Box" ∨
        table.outermost "p.House" = table.outermost "p.House$Shed$Box" ∧
        table.Places "p.House$Shed$Box") ∧
    table.isVisible (table.siteOf "p.House$Shed$Box") safe = true := by
  have hshared := TypeTable.isVisible_private_iff (t := table) (m := safe) "p.House$Shed$Box" rfl
    (by decide) (by decide)
  exact ⟨rfl, by decide, by decide, hshared, by decide⟩

/-- From the shed it may not, though class and shed have the same outermost type. -/
theorem shed_left_out :
    ¬ ∀ (t : TypeTable) (m : Member) (owner name : String), m.owner = some owner →
      m.access = .sameType → t.isInterface owner = false →
      (t.isVisible (t.siteOf name) m = true ↔
        owner = name ∨ t.outermost owner = t.outermost name) := by
  intro h
  have hshared := h table safe "p.House" "p.House$Shed" rfl (by decide) (by decide)
  have hshut : table.isVisible (table.siteOf "p.House$Shed") safe = false := by decide
  rw [hshut] at hshared
  exact absurd (hshared.2 (.inr (by decide))) (by decide)

end Annex

end CallChain
