/-
# Arrays of references are covariant, but for arrays as objects

An array of classes may stand for an array of what the class may stand for, and
for no other; so may an array of arrays, at every depth. There is one
exception: any array may stand for the type above all classes, but an array of
arrays does not stand for an array of that type, as between arrays only those
of as many dimensions are compared.

Key definition: `JavaType.IsReference`.
Key theorem: `TypeTable.assignable_arrayOf_eq`.
-/
import CallChain.Proofs.TypeTable.Assignable

namespace CallChain

namespace JavaType

variable {supertypes : JavaType → List String} {a b : JavaType}

/-- The type is a class or interface, whatever its arguments, or an array of any
element. -/
def IsReference (t : JavaType) : Prop := t.dimensions ≠ 0 ∨ t.erasure?.isSome = true

/-- Between references, arrays of as many dimensions are compared by their
elements, and classes by themselves; but any array stands for the type above all
classes. -/
theorem IsReference.assignable_iff (ha : a.IsReference) (hb : b.IsReference) :
    assignable supertypes a b = true ↔
      a.dimensions = b.dimensions ∧ ElementsAssign supertypes a b ∨
      a.dimensions ≠ 0 ∧ b.erasure? = some JavaName.object := by
  by_cases hdims : b.dimensions = 0
  · obtain ⟨y, hy⟩ := Option.isSome_iff_exists.1 (hb.resolve_left (fun h => h hdims))
    rw [JavaType.assignable_iff]
    constructor
    · intro h
      cases h with
      | same h => exact .inl ⟨congrArg dimensions h, .inl (congrArg elementType h)⟩
      | widened _ hy' _ =>
        rw [hy'] at hy
        cases hy
      | named h =>
        obtain ⟨x, -, hx, -⟩ := namesAssignable_iff.1 h
        refine .inl ⟨(dimensions_of_erasure? hx).trans hdims.symm, .inr ?_⟩
        rwa [elementType_of_erasure? hx, elementType_of_erasure? hy]
      | elements hne _ _ => exact absurd hdims hne
      | object harray htop => exact .inr ⟨harray, htop⟩
    · rintro (⟨hab, helements⟩ | ⟨harray, htop⟩)
      · obtain ⟨x, hx⟩ := Option.isSome_iff_exists.1 (ha.resolve_left (fun h => h (hab.trans hdims)))
        rw [ElementsAssign, elementType_of_erasure? hx, elementType_of_erasure? hy] at helements
        exact helements.elim .same .named
      · exact .object harray htop
  · rw [assignable_iff_of_dimensions hdims, or_iff_left]
    exact fun h => hdims (dimensions_of_erasure? h.2)

end JavaType

/-- **Arrays of references are covariant, but for arrays as objects.** However
many dimensions are put on two references, the arrays are assignable exactly if
the references are; but not if an array is one of them and the type above all
classes the other. The array may stand for that type, and an array of it for no
array of that type. -/
theorem TypeTable.assignable_arrayOf_eq (t : TypeTable) {a b : JavaType} (ha : a.IsReference)
    (hb : b.IsReference) {n : Nat} (hn : n ≠ 0) :
    (¬ (a.dimensions ≠ 0 ∧ b.erasure? = some JavaName.object) →
      t.assignable (JavaType.arrayOf a n) (JavaType.arrayOf b n) = t.assignable a b) ∧
    (a.dimensions ≠ 0 ∧ b.erasure? = some JavaName.object →
      t.assignable a b = true ∧
        t.assignable (JavaType.arrayOf a n) (JavaType.arrayOf b n) = false) := by
  have hplain : t.assignable a b = true ↔ a.dimensions = b.dimensions ∧
      JavaType.ElementsAssign t.supertypes a b ∨
      a.dimensions ≠ 0 ∧ b.erasure? = some JavaName.object := ha.assignable_iff hb
  have harrays : t.assignable (JavaType.arrayOf a n) (JavaType.arrayOf b n) = true ↔
      a.dimensions = b.dimensions ∧ JavaType.ElementsAssign t.supertypes a b :=
    JavaType.assignable_arrayOf_iff hn
  constructor
  · intro h
    rw [Bool.eq_iff_iff, harrays, hplain, or_iff_left h]
  · rintro ⟨harray, htop⟩
    refine ⟨hplain.2 (.inr ⟨harray, htop⟩), ?_⟩
    rw [Bool.eq_false_iff, ne_eq, harrays]
    rintro ⟨hdims, -⟩
    exact harray (hdims.trans (JavaType.dimensions_of_erasure? htop))

namespace Shelf

/-- A box, which is a thing. -/
def table : TypeTable := .ofDecls [
  { name := "java.lang.Object" },
  { name := "Box", interfaces := ["Thing"] },
  { name := "Thing", kind := .interface }]

def object : JavaType := .named "java.lang.Object"

/-- An array of integers is an object, but an array of such arrays is no array of
objects. -/
theorem arrays_not_objects :
    let ints : JavaType := .array (.plain "int") 1
    ints.IsReference ∧ object.IsReference ∧
    ¬ (table.assignable (.arrayOf ints 1) (.arrayOf object 1) = true ↔
      table.assignable ints object = true) := by
  refine ⟨.inl (by decide), .inr rfl, by decide⟩

/-- Arrays of arrays of boxes are arrays of arrays of things; arrays of arrays of
boxes are objects, but in an array they are no array of objects. -/
theorem covariant_shelf :
    let boxes : JavaType := .array (.applied (.named "Box") [.plain "T"]) 2
    let things : JavaType := .array (.array (.named "Thing") 1) 1
    boxes.IsReference ∧ things.IsReference ∧ object.IsReference ∧
    table.assignable (.arrayOf boxes 3) (.arrayOf things 3) = table.assignable boxes things ∧
    table.assignable boxes things = true ∧
    table.assignable (.arrayOf things 3) (.arrayOf boxes 3) = table.assignable things boxes ∧
    table.assignable things boxes = false ∧
    table.assignable boxes object = true ∧
    table.assignable (.arrayOf boxes 1) (.arrayOf object 1) = false := by
  intro boxes things
  have hboxes : boxes.IsReference := .inl (by decide)
  have hthings : things.IsReference := .inl (by decide)
  have hobject : object.IsReference := .inr rfl
  have hup := TypeTable.assignable_arrayOf_eq table hboxes hthings (n := 3) (by decide)
  have hdown := TypeTable.assignable_arrayOf_eq table hthings hboxes (n := 3) (by decide)
  have htop := TypeTable.assignable_arrayOf_eq table hboxes hobject (n := 1) (by decide)
  obtain ⟨hstands, hparts⟩ := htop.2 (by decide)
  exact ⟨hboxes, hthings, hobject, hup.1 (by decide), by decide, hdown.1 (by decide), by decide,
    hstands, hparts⟩

end Shelf

end CallChain
