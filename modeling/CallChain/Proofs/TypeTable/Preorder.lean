/-
# Assignability is a preorder

Every type is assignable to itself, and what is assignable to a type is
assignable to all that the type is assignable to. The rules follow each other
in few ways: widening goes on as widening, names go on as names, elements as
elements, and an array that stands for the type above all classes stands for
nothing else (`JavaType.Assigns.trans`). Names go on as names because what is
above a type is reached by steps, which can be put in a row. There is one rule
that takes no steps, that the type above all classes may stand for every class;
for this to go on there must be nothing above it.

Key definition: `TypeTable.ObjectOnTop`.
Key theorem: `TypeTable.assignable_preorder`.
-/
import CallChain.Proofs.TypeTable.Assignable
import CallChain.Proofs.TypeTable.Supertypes

namespace CallChain

/-! ### How rules follow each other -/

namespace JavaType

variable {supertypes : JavaType → List String} {a b c : JavaType}

theorem wider_subset (x : String) : ∀ y ∈ wider x, wider y ⊆ wider x := by
  fun_cases wider x <;> decide

theorem ElementsAssign.trans
    (names : ∀ {a b c}, namesAssignable supertypes a b = true →
      namesAssignable supertypes b c = true → namesAssignable supertypes a c = true)
    (h : ElementsAssign supertypes a b) (h' : ElementsAssign supertypes b c) :
    ElementsAssign supertypes a c := by
  rcases h with h | h
  · rcases h' with h' | h'
    · exact .inl (h.trans h')
    · exact .inr (h ▸ h')
  · rcases h' with h' | h'
    · exact .inr (h' ▸ h)
    · exact .inr (names h h')

theorem Assigns.of_erasure? {name : String} (ha : a.erasure? = some name)
    (h : Assigns supertypes a b) : a = b ∨ namesAssignable supertypes a b = true := by
  have hdims : a.dimensions = 0 := dimensions_of_erasure? ha
  cases h with
  | same h => exact .inl h
  | widened hx _ _ =>
    rw [hx] at ha
    cases ha
  | named h => exact .inr h
  | elements hb hab _ => exact absurd (hab ▸ hdims) hb
  | object harray _ => exact absurd hdims harray

theorem Assigns.of_plain {x : String} (h : Assigns supertypes (plain x) b) :
    plain x = b ∨ ∃ y, b = plain y ∧ y ∈ wider x := by
  cases h with
  | same h => exact .inl h
  | widened hx hy hwide => exact .inr ⟨_, hy, plain.inj hx ▸ hwide⟩
  | named h =>
    obtain ⟨_, _, hx, -⟩ := namesAssignable_iff.1 h
    cases hx
  | elements hb hdims _ => exact absurd hdims.symm hb
  | object harray _ => exact absurd rfl harray

/-- From an array it goes on with the elements, or to the type above all
classes. -/
theorem Assigns.of_dimensions (ha : a.dimensions ≠ 0) (h : Assigns supertypes a b) :
    a.dimensions = b.dimensions ∧ ElementsAssign supertypes a b ∨
      b.erasure? = some JavaName.object := by
  cases h with
  | same h => exact .inl ⟨congrArg dimensions h, .inl (congrArg elementType h)⟩
  | widened hx _ _ =>
    rw [hx] at ha
    exact absurd rfl ha
  | named h =>
    obtain ⟨_, _, hx, -⟩ := namesAssignable_iff.1 h
    exact absurd (dimensions_of_erasure? hx) ha
  | elements _ hdims h => exact .inl ⟨hdims, h⟩
  | object _ htop => exact .inr htop

/-- Rules may follow each other if names may, and nothing but the type above all
classes is above it. -/
theorem Assigns.trans
    (names : ∀ {a b c}, namesAssignable supertypes a b = true →
      namesAssignable supertypes b c = true → namesAssignable supertypes a c = true)
    (top : ∀ {b c}, b.erasure? = some JavaName.object → namesAssignable supertypes b c = true →
      c.erasure? = some JavaName.object)
    (h : Assigns supertypes a b) (h' : Assigns supertypes b c) : Assigns supertypes a c := by
  cases h with
  | same h => exact h ▸ h'
  | widened hx hy hwide =>
    subst hy
    rcases h'.of_plain with rfl | ⟨z, hz, hwide'⟩
    · exact .widened hx rfl hwide
    · exact .widened hx hz (wider_subset _ _ hwide hwide')
  | named h =>
    obtain ⟨_, _, -, hb, -⟩ := namesAssignable_iff.1 h
    rcases h'.of_erasure? hb with rfl | h'
    · exact .named h
    · exact .named (names h h')
  | elements hb hdims h =>
    rcases h'.of_dimensions hb with ⟨hdims', h'⟩ | htop
    · exact .elements (hdims' ▸ hb) (hdims.trans hdims') (h.trans names h')
    · exact .object (hdims ▸ hb) htop
  | object ha htop =>
    rcases h'.of_erasure? htop with rfl | h'
    · exact .object ha htop
    · exact .object ha (top htop h')

end JavaType

/-! ### Names in a table -/

namespace TypeTable

variable {t : TypeTable} {a b c : JavaType}

/-- The type above all classes has nothing above it, if it is declared. -/
def ObjectOnTop (t : TypeTable) : Prop :=
  ∀ d ∈ t.find? JavaName.object, d.superclass = none ∧ d.interfaces = []

theorem ObjectOnTop.parents_eq_nil (top : t.ObjectOnTop) : t.parents JavaName.object = [] := by
  cases hfind : t.find? JavaName.object with
  | none => simp [parents, superclass?, interfaces, hfind]
  | some d =>
    obtain ⟨hsuper, hinterfaces⟩ := top d hfind
    simp [parents, superclass?, interfaces, hfind, hsuper, hinterfaces]

theorem ObjectOnTop.eq_of_above (top : t.ObjectOnTop) {k : Nat} {name : String}
    (h : t.Above JavaName.object k name) : name = JavaName.object := by
  induction h with
  | here => rfl
  | step _ hnext ih =>
    subst ih
    rw [← mem_parents_iff, top.parents_eq_nil] at hnext
    cases hnext

theorem namesAssignable_iff : JavaType.namesAssignable t.supertypes a b = true ↔
    ∃ x y, a.erasure? = some x ∧ b.erasure? = some y ∧
      (y = JavaName.object ∨ ∃ k, t.Above x k y) := by
  rw [JavaType.namesAssignable_iff]
  refine exists_congr fun x => exists_congr fun y => and_congr_right fun hx =>
    and_congr_right fun _ => ?_
  rw [mem_supertypes_iff, JavaType.elementType_of_erasure? hx, hx]
  constructor
  · rintro (rfl | htop | ⟨root, hroot, habove⟩)
    · exact .inr ⟨0, .here⟩
    · exact .inl htop
    · exact .inr (Option.some.inj hroot ▸ habove)
  · rintro (htop | habove)
    · exact .inr (.inl htop)
    · exact .inr (.inr ⟨x, rfl, habove⟩)

theorem ObjectOnTop.namesAssignable_trans (top : t.ObjectOnTop)
    (h : JavaType.namesAssignable t.supertypes a b = true)
    (h' : JavaType.namesAssignable t.supertypes b c = true) :
    JavaType.namesAssignable t.supertypes a c = true := by
  obtain ⟨x, y, hx, hy, habove⟩ := namesAssignable_iff.1 h
  obtain ⟨_, z, hy', hz, habove'⟩ := namesAssignable_iff.1 h'
  obtain rfl := Option.some.inj (hy.symm.trans hy')
  refine namesAssignable_iff.2 ⟨x, z, hx, hz, ?_⟩
  rcases habove' with hobject | ⟨j, hj⟩
  · exact .inl hobject
  · rcases habove with rfl | ⟨k, hk⟩
    · exact .inl (top.eq_of_above hj)
    · exact .inr ⟨k + j, hk.trans hj⟩

theorem ObjectOnTop.erasure?_eq (top : t.ObjectOnTop) (ha : a.erasure? = some JavaName.object)
    (h : JavaType.namesAssignable t.supertypes a b = true) :
    b.erasure? = some JavaName.object := by
  obtain ⟨x, y, hx, hy, habove⟩ := namesAssignable_iff.1 h
  obtain rfl := Option.some.inj (ha.symm.trans hx)
  rcases habove with rfl | ⟨k, hk⟩
  · exact hy
  · rw [hy, top.eq_of_above hk]

/-- **Assignability is a preorder.** Where nothing is above the type above all
classes, every type is assignable to itself, and to all that a type is
assignable to that it is assignable to. -/
theorem assignable_preorder (t : TypeTable) (top : t.ObjectOnTop) :
    (∀ a, t.assignable a a = true) ∧
    ∀ a b c, t.assignable a b = true → t.assignable b c = true → t.assignable a c = true := by
  constructor
  · exact fun a => JavaType.assignable_refl t.supertypes a
  · intro a b c hab hbc
    have hab' : JavaType.Assigns t.supertypes a b := JavaType.assignable_iff.1 hab
    have hbc' : JavaType.Assigns t.supertypes b c := JavaType.assignable_iff.1 hbc
    exact JavaType.assignable_iff.2
      (hab'.trans (fun h h' => top.namesAssignable_trans h h') (fun h h' => top.erasure?_eq h h') hbc')

end TypeTable

/-- Where two classes extend each other, arrays of arrays of one are assignable
to arrays of arrays of what the other implements, and so to the type above all
classes. -/
theorem Knot.preorder_knot :
    let low : JavaType := .array (.applied (.named "A") [.unresolved]) 2
    let mid : JavaType := .array (.array (.named "U") 1) 1
    table.ObjectOnTop ∧ table.assignable low mid = true ∧
      table.assignable mid (.named "java.lang.Object") = true ∧ table.assignable low low = true ∧
      table.assignable low (.named "java.lang.Object") = true := by
  intro low mid
  have htop : table.ObjectOnTop := by
    intro d hd
    obtain rfl : d = { name := "java.lang.Object" } := by
      rw [Option.mem_def] at hd
      exact Option.some.inj (hd.symm.trans (by decide))
    exact ⟨rfl, rfl⟩
  have hlow : table.assignable low mid = true := by decide
  have hmid : table.assignable mid (.named "java.lang.Object") = true := by decide
  obtain ⟨hrefl, htrans⟩ := TypeTable.assignable_preorder table htop
  exact ⟨htop, hlow, hmid, hrefl low, htrans low mid _ hlow hmid⟩

end CallChain
