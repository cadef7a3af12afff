/-
# Wider access hides nothing

Each kind of access asks something else of a site: private access, that it is
in the same outermost type; access without a modifier, that it is in the same
package; protected access, that, or that it is in a subtype. A wider access
lets more sites in only if types inside one outermost type are in one package.
That is so where the declarations say nothing else than the names: then every
step outward keeps the outermost type that the name says
(`NamesTell.outermost_outward`), however many steps are taken, and packages are
read off the outermost type (`package_outermost`).

Key definitions: `TypeTable.NamesTell`, `TypeTable.IsSite`, `Access.Widens`.
Key theorems: `TypeTable.NamesTell.outermost_eq`,
`TypeTable.visible_of_widens`.
-/
import CallChain.Proofs.TypeTable.PrivateAccess

namespace CallChain

/-! ### Names -/

theorem JavaName.outermost_of_beforeLast? {name outer : String}
    (h : Text.beforeLast? '$' name = some outer) : outermost outer = outermost name := by
  obtain ⟨rest, rfl⟩ := Text.eq_append_of_beforeLast? h
  exact (Text.beforeFirst_append_singleton_append '$' outer rest).symm

theorem JavaName.package_outermost (name : String) : package (outermost name) = package name := by
  have hself : outermost (outermost name) = outermost name :=
    Text.beforeFirst_of_avoids (Text.avoids_beforeFirst '$' name)
  rw [package, hself, package]

namespace TypeTable

variable {t : TypeTable}

/-- Packages and nesting are as the names say: no declaration gives a package,
and none says that the type is in another than the one whose name is its own up
to the last `$`. -/
structure NamesTell (t : TypeTable) : Prop where
  package : ∀ d ∈ t.decls, d.package = none
  enclosing : ∀ d ∈ t.decls, d.enclosing = none ∨ d.enclosing = Text.beforeLast? '$' d.name

/-- A step outward leads to a type inside the same outermost one. -/
theorem NamesTell.outermost_of_enclosing (h : t.NamesTell) {name outer : String}
    (step : (t.find? name).bind (·.enclosing) = some outer) :
    JavaName.outermost outer = JavaName.outermost name := by
  obtain ⟨d, hd, houter⟩ := Option.bind_eq_some_iff.1 step
  rcases h.enclosing d (mem_of_find? hd) with hnone | hname
  · rw [hnone] at houter
    cases houter
  · rw [houter, name_of_find? hd] at hname
    exact JavaName.outermost_of_beforeLast? hname.symm

theorem NamesTell.outermost_outward (h : t.NamesTell) (steps : Nat) (name : String) :
    JavaName.outermost (t.outward steps name) = JavaName.outermost name := by
  induction steps generalizing name with
  | zero => rfl
  | succ steps ih =>
    rw [outward]
    split
    · rename_i outer hstep
      rw [ih, h.outermost_of_enclosing hstep]
    · rfl

/-- The outermost type is the one that the name says. -/
theorem NamesTell.outermost_eq (h : t.NamesTell) (name : String) :
    t.outermost name = JavaName.outermost name :=
  h.outermost_outward maxNesting name

theorem NamesTell.packageName_eq (h : t.NamesTell) {d : TypeDecl} (hd : d ∈ t.decls) :
    d.packageName = JavaName.package d.name := by
  rw [TypeDecl.packageName, h.package d hd, Option.getD_none]

theorem NamesTell.package_eq (h : t.NamesTell) (name : String) :
    t.package name = JavaName.package name := by
  unfold TypeTable.package
  split
  · rename_i d hd
    rw [h.packageName_eq (mem_of_find? hd), name_of_find? hd]
  · rfl

/-! ### Sites -/

/-- The sites there are: inside declared types, and inside types of which
nothing but the name is known. -/
def IsSite (t : TypeTable) (site : Site) : Prop :=
  (∃ name, t.site? name = some site) ∨ ∃ name, site = .named name

theorem NamesTell.package_outermost_site (h : t.NamesTell) {site : Site} (hsite : t.IsSite site) :
    JavaName.package site.outermost = site.package := by
  rcases hsite with ⟨name, declared⟩ | ⟨name, rfl⟩
  · obtain ⟨d, hd, rfl⟩ := Option.map_eq_some_iff.1 declared
    simp only
    rw [h.outermost_eq, JavaName.package_outermost, h.packageName_eq (mem_of_find? hd),
      name_of_find? hd]
  · rw [Site.named]

theorem NamesTell.package_eq_of_outermost_eq (h : t.NamesTell) {site : Site} (hsite : t.IsSite site)
    {name : String} (inside : t.outermost name = site.outermost) : t.package name = site.package := by
  rw [h.outermost_eq] at inside
  rw [h.package_eq, ← JavaName.package_outermost, inside, h.package_outermost_site hsite]

end TypeTable

/-! ### Access -/

/-- The access that is next wider to another. -/
inductive Access.Widens : Access → Access → Prop where
  | samePackage : Widens .sameType .samePackage
  | subtypes : Widens .samePackage .subtypes
  | everyone : Widens .subtypes .everyone

namespace TypeTable

variable {t : TypeTable}

/-- A wider access lets every site in that the narrower one does. -/
theorem NamesTell.grants_of_widens (h : t.NamesTell) {site : Site} (hsite : t.IsSite site)
    {owner : String} {narrow wide : Access} (widens : narrow.Widens wide)
    (granted : t.grants site owner narrow = true) : t.grants site owner wide = true := by
  cases widens with
  | samePackage =>
    have inside : t.outermost owner = site.outermost := by simpa [grants] using granted
    simpa [grants] using h.package_eq_of_outermost_eq hsite inside
  | subtypes =>
    have near : t.package owner = site.package := by simpa [grants] using granted
    simp [grants, near]
  | everyone => rfl

/-- **Wider access hides nothing.** Where packages and nesting are as the names
say, the outermost type of a type is the part of its name before the first `$`,
and of two members of a type of which one has the next wider access, that one
may be used from every site from which the other may. -/
theorem visible_of_widens (h : t.NamesTell) :
    (∀ name, t.outermost name = Text.beforeFirst '$' name) ∧
    ∀ site, t.IsSite site → ∀ m m' : Member, m'.owner = m.owner → m.access.Widens m'.access →
      t.isVisible site m = true → t.isVisible site m' = true := by
  refine ⟨h.outermost_eq, fun site hsite m m' sameOwner widens visible => ?_⟩
  unfold isVisible at visible ⊢
  rw [sameOwner]
  cases howner : m.owner with
  | none => rfl
  | some owner =>
    simp only [howner, Bool.or_eq_true] at visible ⊢
    exact visible.imp_right (h.grants_of_widens hsite widens)

end TypeTable

namespace Annex

def rug (modifiers : List String) : Member := { Member.field "p.House" "rug" (.named "p.Rug") with modifiers }

theorem namesTell : table.NamesTell := ⟨by decide, by decide⟩

/-- In the box a field of the class may be used whatever its access, in another
class of the package unless it is private. -/
theorem rug_widened :
    table.NamesTell ∧
    (∀ name, table.outermost name = Text.beforeFirst '$' name) ∧
    table.outermost "p.House$Shed$Box" = "p.House" ∧
    table.isVisible (table.siteOf "p.House$Shed$Box") (rug ["private"]) = true ∧
    table.isVisible (table.siteOf "p.House$Shed$Box") (rug []) = true ∧
    table.isVisible (.named "p.Street") (rug ["private"]) = false ∧
    table.isVisible (.named "p.Street") (rug []) = true ∧
    table.isVisible (.named "p.Street") (rug ["protected"]) = true := by
  obtain ⟨houter, hwider⟩ := TypeTable.visible_of_widens namesTell
  have hbox : table.IsSite (table.siteOf "p.House$Shed$Box") := .inl ⟨"p.House$Shed$Box", by decide⟩
  have hstreet : table.IsSite (.named "p.Street") := .inr ⟨"p.Street", rfl⟩
  have hprivate : table.isVisible (table.siteOf "p.House$Shed$Box") (rug ["private"]) = true := by decide
  have hpackage : table.isVisible (.named "p.Street") (rug []) = true := by decide
  refine ⟨namesTell, houter, ?_, hprivate, ?_, by decide, hpackage, ?_⟩
  · rw [houter]
    decide
  · exact hwider _ hbox (rug ["private"]) (rug []) rfl .samePackage hprivate
  · exact hwider _ hstreet (rug []) (rug ["protected"]) rfl .subtypes hpackage

end Annex

end CallChain
