/-
# Who may use a member

Where code stands decides which members it may use: those of the type it is
in and of interfaces always, else by the member's modifiers. Private members
are shared by all types inside the same outermost type.

Key definitions: `Site`, `TypeTable.site?`, `TypeTable.isVisible`,
`TypeTable.outermost`.
-/
import CallChain.TypeTable.Hierarchy

namespace CallChain

/-- Where code stands. -/
structure Site where
  type : String
  package : String
  outermost : String
  deriving DecidableEq

/-- The site inside a type of which nothing but the name is known. -/
def Site.named (type : String) : Site :=
  { type, package := JavaName.package type, outermost := type }

namespace TypeTable

/-- The type reached by `steps` steps outward, or fewer if a type is not
nested in another. -/
def outward (t : TypeTable) : Nat → String → String
  | 0, name => name
  | steps + 1, name =>
    match (t.find? name).bind (·.enclosing) with
    | some outer => outward t steps outer
    | none => name

/-- How many steps outward are taken at most; declarations may be nested in
each other in a circle. -/
def maxNesting : Nat := 32

/-- The outermost type around a type: outward by the declarations, then by
the name. -/
def outermost (t : TypeTable) (name : String) : String :=
  JavaName.outermost (t.outward maxNesting name)

/-- The site inside a declared type. -/
def site? (t : TypeTable) (name : String) : Option Site :=
  (t.find? name).map fun d =>
    { type := d.name, package := d.packageName, outermost := t.outermost name }

/-- The site inside a type, declared or not. -/
def siteOf (t : TypeTable) (name : String) : Site := (t.site? name).getD (Site.named name)

/-- The package of a type, declared or not. -/
def package (t : TypeTable) (name : String) : String :=
  match t.find? name with
  | some d => d.packageName
  | none => JavaName.package name

/-- Whether a type is declared as an interface. -/
def isInterface (t : TypeTable) (name : String) : Bool :=
  match t.find? name with
  | some d => d.kind == .interface
  | none => false

/-- Whether a member of the given owner and access may be used from a site. -/
def grants (t : TypeTable) (site : Site) (owner : String) : Access → Bool
  | .everyone => true
  | .samePackage => t.package owner == site.package
  | .subtypes =>
    t.package owner == site.package || (t.supertypes (.named site.type)).contains owner
  | .sameType => t.outermost owner == site.outermost

/-- Whether a member may be used from a site; one without an owner always
may. -/
def isVisible (t : TypeTable) (site : Site) (m : Member) : Bool :=
  match m.owner with
  | none => true
  | some owner => owner == site.type || t.isInterface owner || t.grants site owner m.access

end TypeTable

end CallChain
