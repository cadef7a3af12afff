/-
# Dimensions in every view of a type

An array may stand around another, or have no dimensions at all, so that one
type can be put together in several ways. Every view of a type counts the
dimensions alike, whichever way it was: there are as many as brackets in front
of the signature of the element type and pairs of brackets behind its texts, and
dimensions that are put on add to them. It makes no difference whether they are
put on at once or one after the other.

Key theorems: `JavaType.signature_eq_copies`, `JavaType.text_eq_copies`,
`JavaType.arrayOf_arrayOf`, `JavaType.views_agree`.
-/
import CallChain.JavaType.Text

namespace CallChain

theorem Text.copies_zero (s : String) : copies 0 s = "" := rfl

theorem Text.copies_add (m n : Nat) (s : String) : copies (m + n) s = copies m s ++ copies n s := by
  rw [copies, copies, copies, ← String.join_append, List.replicate_append_replicate]

namespace JavaType

/-- What holds of all types but arrays, and of an array if it does of what it
stands around, holds of all types. -/
theorem induction_on_arrays {P : JavaType → Prop} (noArray : ∀ t, t.isArray = false → P t)
    (around : ∀ element dims, P element → P (array element dims)) : ∀ t, P t
  | plain _ => noArray _ rfl
  | named _ => noArray _ rfl
  | applied _ _ => noArray _ rfl
  | array element dims => around element dims (induction_on_arrays noArray around element)
  | unresolved => noArray _ rfl

/-! ### Dimensions read off a view -/

/-- A signature is that of the element type, with a bracket for each dimension
in front. -/
theorem signature_eq_copies (t : JavaType) :
    t.signature = Text.copies t.dimensions "[" ++ t.elementType.signature := by
  induction t using induction_on_arrays with
  | noArray t h =>
    rw [dimensions_of_not_isArray h, elementType_of_not_isArray h, Text.copies_zero,
      String.empty_append]
  | around element dims ih =>
    calc (array element dims).signature
        = Text.copies dims "[" ++ (Text.copies element.dimensions "[" ++
            element.elementType.signature) := by rw [signature, ← ih]
      _ = Text.copies (dims + element.dimensions) "[" ++ element.elementType.signature := by
          rw [Text.copies_add, String.append_assoc]

/-- A text that puts a mark behind an array for each of its dimensions is that
of the element type, with a mark for each dimension of all arrays behind. -/
theorem text_eq_copies {text : JavaType → String} {mark : String}
    (text_array : ∀ element dims,
      text (array element dims) = text element ++ Text.copies dims mark) (t : JavaType) :
    text t = text t.elementType ++ Text.copies t.dimensions mark := by
  induction t using induction_on_arrays with
  | noArray t h =>
    rw [dimensions_of_not_isArray h, elementType_of_not_isArray h, Text.copies_zero,
      String.append_empty]
  | around element dims ih =>
    -- what stands inside is written first, though its dimensions are counted last
    calc text (array element dims)
        = text element.elementType ++ Text.copies element.dimensions mark ++
            Text.copies dims mark := by rw [text_array, ← ih]
      _ = text element.elementType ++ Text.copies (dims + element.dimensions) mark := by
          rw [String.append_assoc, ← Text.copies_add, Nat.add_comm]

/-! ### Dimensions put on -/

theorem arrayOf_zero (t : JavaType) : arrayOf t 0 = t := rfl

theorem arrayOf_array (element : JavaType) (m n : Nat) :
    arrayOf (array element m) n = array element (m + n) := by
  unfold arrayOf
  by_cases h : n = 0
  · rw [if_pos h, h, Nat.add_zero]
  · rw [if_neg h]

theorem arrayOf_of_not_isArray {t : JavaType} (h : t.isArray = false) {n : Nat} (hn : n ≠ 0) :
    arrayOf t n = array t n := by
  cases t with
  | array element dims => cases h
  | _ => exact if_neg hn

/-- Dimensions put on one after the other are put on together. -/
theorem arrayOf_arrayOf (t : JavaType) (m n : Nat) :
    arrayOf (arrayOf t m) n = arrayOf t (m + n) := by
  by_cases hm : m = 0
  · rw [hm, arrayOf_zero, Nat.zero_add]
  · cases h : t.isArray with
    | true =>
      cases t with
      | array element dims => rw [arrayOf_array, arrayOf_array, arrayOf_array, Nat.add_assoc]
      | _ => cases h
    | false =>
      have hsum : m + n ≠ 0 := by omega
      rw [arrayOf_of_not_isArray h hm, arrayOf_array, arrayOf_of_not_isArray h hsum]

/-- **All views of a type agree on its dimensions**, whichever way its arrays
stand in each other: what is left without them is no array, its signature and
its texts are those of the element type with brackets for just these dimensions,
and dimensions put on it are counted, leave the element type as it is, and add
up. -/
theorem views_agree (t : JavaType) :
    t.elementType.isArray = false ∧
    t.signature = Text.copies t.dimensions "[" ++ t.elementType.signature ∧
    t.shortText = t.elementType.shortText ++ Text.copies t.dimensions "[]" ∧
    t.fullText = t.elementType.fullText ++ Text.copies t.dimensions "[]" ∧
    (∀ n, (arrayOf t n).dimensions = t.dimensions + n ∧
      (arrayOf t n).elementType = t.elementType) ∧
    ∀ m n, arrayOf (arrayOf t m) n = arrayOf t (m + n) := by
  have hshort : ∀ element dims,
      (array element dims).shortText = element.shortText ++ Text.copies dims "[]" :=
    fun element dims => by rw [shortText]
  have hfull : ∀ element dims,
      (array element dims).fullText = element.fullText ++ Text.copies dims "[]" :=
    fun element dims => by rw [fullText]
  exact ⟨t.isArray_elementType, t.signature_eq_copies, text_eq_copies hshort t,
    text_eq_copies hfull t, fun n => ⟨dimensions_arrayOf t n, elementType_arrayOf t n⟩,
    arrayOf_arrayOf t⟩

/-- An array of no dimensions between two others, around an applied type whose
base is an array. -/
example : let t := array (array (array (applied (array (named "p.A") 1) [plain "T"]) 2) 0) 1
    t.dimensions = 3 ∧ t.signature = "[[[[Lp/A;" ∧ t.shortText = "A[]<T>[][][]" := by
  decide

end JavaType

end CallChain
