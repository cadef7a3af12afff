/-
# Where a chain may end

A chain may end in a link whose value, taken down by indices to the dimensions
of the type asked for, is assignable to that type. Whether it may is not asked
of the value but of its element: that has to be a reference, and assignable
to the element of the type. For references the two questions are one, as
arrays are assignable when their elements are. They part where an array is
asked for and the element is a primitive, or void: an array of these is
assignable to an array of the same, and still no chain may end in it.

Key definition: `Facts.fits`.
Key theorems: `Facts.reaches_iff`, `Facts.reaches_eq_fits`.
-/
import CallChain.Proofs.Search.Course
import CallChain.Proofs.TypeTable.Assignable

namespace CallChain

/-- Whether the value of a link, taken down to the dimensions of a type, may
stand where a value of the type is asked for. -/
def Facts.fits (F : Facts) (type : JavaType) (l : Link) : Bool :=
  F.assignable (JavaType.arrayOf l.type.elementType type.dimensions)
    (JavaType.arrayOf type.elementType type.dimensions)

/-- Whether a type is no reference and no array: a primitive, or void. -/
def JavaType.isBare (t : JavaType) : Bool := t.isPrimitive || t.isVoid

variable {F : Facts} {supertypes : JavaType → List String}

/-- A chain may end in a link that has enough dimensions, an element that is a
reference, and a value that fits. -/
theorem Facts.reaches_iff (rules : F.assignable = JavaType.assignable supertypes) (type : JavaType)
    (l : Link) :
    F.reaches (Goal.ofType type) l = true ↔
      type.dimensions ≤ l.dims ∧ l.type.elementType.isBare = false ∧ F.fits type l = true := by
  have hlift : l.type.elementType.isBare = false →
      (F.assignable l.type.elementType type.elementType = true ↔ F.fits type l = true) := by
    intro hbare
    have hprimitive : l.type.elementType.isPrimitive = false := by
      simp only [JavaType.isBare, Bool.or_eq_false_iff] at hbare
      exact hbare.1
    rw [fits, rules]
    exact ⟨fun h => JavaType.assignable_arrayOf (JavaType.isArray_elementType _)
        (JavaType.isArray_elementType _) hprimitive h _,
      JavaType.assignable_of_arrayOf (JavaType.isArray_elementType _) (JavaType.isArray_elementType _)⟩
  have hreaches : F.reaches (Goal.ofType type) l = true ↔
      type.dimensions ≤ l.dims ∧ l.type.elementType.isBare = false ∧
        F.assignable l.type.elementType type.elementType = true := by
    simp only [reaches, Bool.and_eq_true, decide_eq_true_eq, Bool.not_eq_true', and_assoc]
    exact Iff.rfl
  rw [hreaches]
  exact and_congr_right fun _ => and_congr_right hlift

/-- **Where a chain may end.** If a link has the dimensions of the type asked
for, and what is left of its value when it is taken down to them is a
reference, then a chain may end in it exactly if its value fits; but not if its
element is a primitive, or void, and an array of just these is asked for. Such
a value fits, and no chain may end in it. -/
theorem Facts.reaches_eq_fits (rules : F.assignable = JavaType.assignable supertypes)
    (type : JavaType) (l : Link) (enough : type.dimensions ≤ l.dims)
    (reference : 1 ≤ type.dimensions ∨ l.type.elementType.isBare = false) :
    (¬ (l.type.elementType.isBare = true ∧ l.type.elementType = type.elementType) →
      F.reaches (Goal.ofType type) l = F.fits type l) ∧
    (l.type.elementType.isBare = true ∧ l.type.elementType = type.elementType →
      F.reaches (Goal.ofType type) l = false ∧ F.fits type l = true) := by
  have hreaches := Facts.reaches_iff rules type l
  cases hbare : l.type.elementType.isBare with
  | false =>
    refine ⟨fun _ => ?_, fun h => by cases h.1⟩
    rw [Bool.eq_iff_iff, hreaches]
    simp [enough, hbare]
  | true =>
    have hnone : F.reaches (Goal.ofType type) l = false := by
      rw [Bool.eq_false_iff, ne_eq, hreaches]
      simp [hbare]
    have hdims : type.dimensions ≠ 0 := by
      rcases reference with h | h
      · omega
      · rw [hbare] at h
        cases h
    have hsame : F.fits type l = true ↔ l.type.elementType = type.elementType := by
      rw [fits, rules]
      refine JavaType.assignable_arrayOf_iff_eq ?_ (JavaType.isArray_elementType _) hdims
      simpa [JavaType.isBare] using hbare
    refine ⟨fun h => ?_, fun h => ⟨hnone, hsame.2 h.2⟩⟩
    have hdiffer : F.fits type l = false := by
      rw [Bool.eq_false_iff, ne_eq, hsame]
      exact fun he => h ⟨rfl, he⟩
    rw [hnone, hdiffer]

namespace Ledger

/-- A type whose values have an array of integers, and names in an array of
arrays. -/
def table : TypeTable := .ofDecls [{
  name := "A"
  members := [.field "A" "ids" (.array (.plain "int") 1),
    .field "A" "names" (.array (.array (.named "java.lang.String") 1) 1)] }]

/-- What the table answers inside a type that it does not declare. -/
def facts : Facts := table.facts (Site.named "S")

def limits : Limits :=
  { Circle.limits with maxChains := 20, minLength := 1, maxLength := 2, excluded := [] }

/-- A local variable of the type. -/
def start : Link := .ofMember (.localVar "x" (.named "A")) .localVar (.named "A") 0 false

def ints : JavaType := .array (.plain "int") 1

def objects : JavaType := .array (.named "java.lang.Object") 1

def ids : Link := .ofMember (.field "A" "ids" ints) .field ints 1 false

def names : Link :=
  .ofMember (.field "A" "names" (.array (.array (.named "java.lang.String") 1) 1)) .field
    (.array (.array (.named "java.lang.String") 1) 1) 2 false

/-- An array of integers is asked for and at hand, and fits; no chain ends in
it. -/
theorem ids_not_found :
    facts.link false (.field "A" "ids" ints) = .ok ids ∧ ints.dimensions ≤ ids.dims ∧
    1 ≤ ints.dimensions ∧ facts.fits ints ids = true ∧ facts.reaches (Goal.ofType ints) ids = false ∧
    (facts.search limits .none [start] [ints]).chains.map Chain.printed = [] := by
  refine ⟨rfl, by decide, by decide, by decide, by decide, by decide⟩

/-- Where arrays of objects are asked for, a chain may end in the names, of
which one index leaves an array. -/
theorem names_reached :
    objects.dimensions ≤ names.dims ∧ 1 ≤ objects.dimensions ∧
    facts.reaches (Goal.ofType objects) names = facts.fits objects names ∧
    facts.fits objects names = true ∧
    (facts.search limits .none [start] [objects]).chains.map Chain.printed = ["x.names"] ∧
    facts.reaches (Goal.ofType ints) ids = false ∧ facts.fits ints ids = true := by
  have hnames := Facts.reaches_eq_fits (F := facts) rfl objects names (by decide) (by decide)
  have hids := Facts.reaches_eq_fits (F := facts) rfl ints ids (by decide) (by decide)
  exact ⟨by decide, by decide, hnames.1 (by decide), by decide, by decide, hids.2 (by decide)⟩

end Ledger

end CallChain
