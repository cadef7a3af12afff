/-
# The rules of assignability

Assignability is decided branch by branch. Read as rules, it says that a value
of one type may stand where another type is asked for if the types are the
same, or a primitive widens, or a class or interface is below another, or
arrays have as many dimensions and elements that are the same or below each
other, or any array stands where the type above all classes is asked for
(`assignable_iff`). No rule for names holds of a primitive, so that arrays of
primitives, or of void, are assignable to arrays of the same only.

Key definition: `JavaType.Assigns`.
Key theorems: `JavaType.assignable_iff`, `JavaType.assignable_arrayOf`,
`JavaType.assignable_of_arrayOf`, `JavaType.assignable_arrayOf_iff_eq`.
-/
import CallChain.TypeTable.Assignable

namespace CallChain.JavaType

variable {supertypes : JavaType → List String} {a b : JavaType}

/-! ### Types with and without a full name -/

theorem not_isArray_of_erasure? {name : String} (h : a.erasure? = some name) :
    a.isArray = false := by
  cases a with
  | array element dims => cases h
  | _ => rfl

theorem dimensions_of_erasure? {name : String} (h : a.erasure? = some name) : a.dimensions = 0 :=
  dimensions_of_not_isArray (not_isArray_of_erasure? h)

theorem elementType_of_erasure? {name : String} (h : a.erasure? = some name) : a.elementType = a :=
  elementType_of_not_isArray (not_isArray_of_erasure? h)

theorem erasure?_of_isPrimitive (h : a.isPrimitive = true) : a.erasure? = none := by
  cases a with
  | plain name => rfl
  | _ => cases h

theorem erasure?_of_isVoid (h : a.isVoid = true) : a.erasure? = none := by
  cases a with
  | plain name => rfl
  | _ => cases h

theorem isArray_of_dimensions (h : a.dimensions ≠ 0) : a.isArray = true := by
  cases harray : a.isArray with
  | true => rfl
  | false => exact absurd (dimensions_of_not_isArray harray) h

theorem isPrimitive_of_wider {x y : String} (h : y ∈ wider x) :
    (plain x).isPrimitive = true := by
  unfold wider at h
  split at h
  case h_7 => cases h
  all_goals rfl

/-! ### The rules -/

theorem namesAssignable_iff : namesAssignable supertypes a b = true ↔
    ∃ x y, a.erasure? = some x ∧ b.erasure? = some y ∧
      (x = y ∨ y = JavaName.object ∨ y ∈ supertypes a) := by
  unfold namesAssignable
  cases a.erasure? with
  | none => simp
  | some x =>
    cases b.erasure? with
    | none => simp
    | some y => simp [or_assoc]

theorem isPrimitive_of_namesAssignable (h : namesAssignable supertypes a b = true) :
    a.isPrimitive = false ∧ b.isPrimitive = false := by
  obtain ⟨x, y, hx, hy, -⟩ := namesAssignable_iff.1 h
  constructor
  · cases ha : a.isPrimitive with
    | false => rfl
    | true => rw [erasure?_of_isPrimitive ha] at hx; cases hx
  · cases hb : b.isPrimitive with
    | false => rfl
    | true => rw [erasure?_of_isPrimitive hb] at hy; cases hy

/-- The elements of two arrays are the same, or assignable by their names. -/
def ElementsAssign (supertypes : JavaType → List String) (a b : JavaType) : Prop :=
  a.elementType = b.elementType ∨ namesAssignable supertypes a.elementType b.elementType = true

/-- The rules by which a value of type `a` may stand where type `b` is asked
for. -/
inductive Assigns (supertypes : JavaType → List String) (a b : JavaType) : Prop where
  | same (equal : a = b)
  | widened {x y : String} (low : a = plain x) (high : b = plain y) (wide : y ∈ wider x)
  | named (names : namesAssignable supertypes a b = true)
  | elements (array : b.dimensions ≠ 0) (dims : a.dimensions = b.dimensions)
      (elements : ElementsAssign supertypes a b)
  | object (array : a.dimensions ≠ 0) (top : b.erasure? = some JavaName.object)

theorem valueAssignable_iff : valueAssignable supertypes a b = true ↔
    a = b ∨ (∃ x y, a = plain x ∧ b = plain y ∧ y ∈ wider x) ∨
      namesAssignable supertypes a b = true := by
  rw [valueAssignable.eq_def, Bool.or_eq_true, beq_iff_eq]
  refine or_congr_right ?_
  split
  · rename_i x y
    have hnames : namesAssignable supertypes (plain x) (plain y) = false := rfl
    simp [hnames]
  · rename_i hplain
    constructor
    · exact .inr
    · rintro (⟨x, y, rfl, rfl, -⟩ | h)
      · exact absurd rfl (hplain x y rfl)
      · exact h

/-- The elements of arrays are assignable as values, but the same if one is
primitive. -/
theorem elementsAssign_iff : ElementsAssign supertypes a b ↔
    (if a.elementType.isPrimitive || b.elementType.isPrimitive then
      a.elementType == b.elementType
    else valueAssignable supertypes a.elementType b.elementType) = true := by
  unfold ElementsAssign
  split
  · rename_i hprimitive
    rw [beq_iff_eq, or_iff_left]
    intro hnames
    obtain ⟨ha, hb⟩ := isPrimitive_of_namesAssignable hnames
    simp [ha, hb] at hprimitive
  · rename_i hprimitive
    rw [valueAssignable_iff]
    constructor
    · exact fun h => h.imp_right .inr
    · rintro (h | ⟨x, y, hx, -, hwide⟩ | h)
      · exact .inl h
      · -- only primitives widen, and these are none
        rw [hx, isPrimitive_of_wider hwide] at hprimitive
        exact absurd rfl hprimitive
      · exact .inr h

theorem arrayAssignable_iff : arrayAssignable supertypes a b = true ↔
    a.dimensions ≠ 0 ∧ b.erasure? = some JavaName.object ∨
    b.dimensions ≠ 0 ∧ a.dimensions = b.dimensions ∧ ElementsAssign supertypes a b := by
  unfold arrayAssignable
  by_cases hb : b.dimensions = 0
  · simp [hb, Nat.pos_iff_ne_zero]
  · have htop : b.erasure? ≠ some JavaName.object := fun h => hb (dimensions_of_erasure? h)
    by_cases hdims : a.dimensions = b.dimensions
    · simp [hb, htop, hdims, elementsAssign_iff]
    · simp [hb, htop, hdims]

/-- **Assignability is what its rules say.** -/
theorem assignable_iff : assignable supertypes a b = true ↔ Assigns supertypes a b := by
  rw [assignable, Bool.or_eq_true, beq_iff_eq]
  constructor
  · rintro (h | h)
    · exact .same h
    · split at h
      · rcases arrayAssignable_iff.1 h with ⟨ha, hb⟩ | ⟨hb, hdims, helements⟩
        · exact .object ha hb
        · exact .elements hb hdims helements
      · rcases valueAssignable_iff.1 h with h | ⟨x, y, hx, hy, hwide⟩ | h
        · exact .same h
        · exact .widened hx hy hwide
        · exact .named h
  · intro h
    cases h with
    | same h => exact .inl h
    | widened hx hy hwide =>
      have hvalue : valueAssignable supertypes a b = true :=
        valueAssignable_iff.2 (.inr (.inl ⟨_, _, hx, hy, hwide⟩))
      subst hx hy
      exact .inr hvalue
    | named h =>
      obtain ⟨x, y, hx, hy, -⟩ := namesAssignable_iff.1 h
      rw [not_isArray_of_erasure? hx, not_isArray_of_erasure? hy]
      exact .inr (valueAssignable_iff.2 (.inr (.inr h)))
    | elements hb hdims helements =>
      rw [isArray_of_dimensions hb, Bool.or_true, if_pos rfl]
      exact .inr (arrayAssignable_iff.2 (.inr ⟨hb, hdims, helements⟩))
    | object ha htop =>
      rw [isArray_of_dimensions ha, Bool.true_or, if_pos rfl]
      exact .inr (arrayAssignable_iff.2 (.inl ⟨ha, htop⟩))

theorem assignable_refl (supertypes : JavaType → List String) (a : JavaType) :
    assignable supertypes a a = true :=
  assignable_iff.2 (.same rfl)

/-! ### Arrays -/

/-- Where an array is asked for, an array of as many dimensions may stand whose
elements are the same, or assignable by their names. -/
theorem assignable_iff_of_dimensions (hb : b.dimensions ≠ 0) :
    assignable supertypes a b = true ↔
      a.dimensions = b.dimensions ∧ ElementsAssign supertypes a b := by
  rw [assignable_iff]
  constructor
  · intro h
    cases h with
    | same h => exact ⟨congrArg dimensions h, .inl (congrArg elementType h)⟩
    | widened _ hy _ =>
      subst hy
      exact absurd rfl hb
    | named h =>
      obtain ⟨-, y, -, hy, -⟩ := namesAssignable_iff.1 h
      exact absurd (dimensions_of_erasure? hy) hb
    | elements _ hdims h => exact ⟨hdims, h⟩
    | object _ htop => exact absurd (dimensions_of_erasure? htop) hb
  · exact fun h => .elements hb h.1 h.2

theorem assignable_arrayOf_iff {n : Nat} (hn : n ≠ 0) :
    assignable supertypes (arrayOf a n) (arrayOf b n) = true ↔
      a.dimensions = b.dimensions ∧ ElementsAssign supertypes a b := by
  have hb : (arrayOf b n).dimensions ≠ 0 := by
    rw [dimensions_arrayOf]
    omega
  rw [assignable_iff_of_dimensions hb, ElementsAssign, ElementsAssign, dimensions_arrayOf,
    dimensions_arrayOf, elementType_arrayOf, elementType_arrayOf, Nat.add_right_cancel_iff]

theorem assignable_arrayOf_iff_of_not_isArray (ha : a.isArray = false) (hb : b.isArray = false)
    {n : Nat} (hn : n ≠ 0) : assignable supertypes (arrayOf a n) (arrayOf b n) = true ↔
      a = b ∨ namesAssignable supertypes a b = true := by
  rw [assignable_arrayOf_iff hn, ElementsAssign, elementType_of_not_isArray ha,
    elementType_of_not_isArray hb, dimensions_of_not_isArray ha, dimensions_of_not_isArray hb]
  exact and_iff_right rfl

/-- **Assignable elements make assignable arrays.** -/
theorem assignable_arrayOf (ha : a.isArray = false) (hb : b.isArray = false)
    (reference : a.isPrimitive = false) (h : assignable supertypes a b = true) (n : Nat) :
    assignable supertypes (arrayOf a n) (arrayOf b n) = true := by
  by_cases hn : n = 0
  · subst hn
    exact h
  · rw [assignable_arrayOf_iff_of_not_isArray ha hb hn]
    cases assignable_iff.1 h with
    | same h => exact .inl h
    | widened hx _ hwide =>
      rw [hx, isPrimitive_of_wider hwide] at reference
      cases reference
    | named h => exact .inr h
    | elements hdims _ _ => exact absurd (dimensions_of_not_isArray hb) hdims
    | object hdims _ => exact absurd (dimensions_of_not_isArray ha) hdims

/-- Arrays are assignable only if their elements are. -/
theorem assignable_of_arrayOf (ha : a.isArray = false) (hb : b.isArray = false) {n : Nat}
    (h : assignable supertypes (arrayOf a n) (arrayOf b n) = true) :
    assignable supertypes a b = true := by
  by_cases hn : n = 0
  · subst hn
    exact h
  · rcases (assignable_arrayOf_iff_of_not_isArray ha hb hn).1 h with h | h
    · exact assignable_iff.2 (.same h)
    · exact assignable_iff.2 (.named h)

/-- Arrays of primitives, or of void, are assignable to arrays of the same
only. -/
theorem assignable_arrayOf_iff_eq (ha : a.isPrimitive = true ∨ a.isVoid = true)
    (hb : b.isArray = false) {n : Nat} (hn : n ≠ 0) :
    assignable supertypes (arrayOf a n) (arrayOf b n) = true ↔ a = b := by
  have herasure : a.erasure? = none := ha.elim erasure?_of_isPrimitive erasure?_of_isVoid
  have harray : a.isArray = false := by
    cases a with
    | array element dims => simp [isPrimitive, isVoid] at ha
    | _ => rfl
  rw [assignable_arrayOf_iff_of_not_isArray harray hb hn, or_iff_left]
  intro h
  obtain ⟨x, -, hx, -⟩ := namesAssignable_iff.1 h
  rw [herasure] at hx
  cases hx

end CallChain.JavaType
