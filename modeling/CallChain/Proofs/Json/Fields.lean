/-
# Parts that are written are parts that are read

What the decoders ask of a value, they find in one that was written: the fields
of a record in their order, the items of a list, a missing part as null, an
alternative with its content.

Key theorems: `Json.slots_obj`, `Json.list?_map`, `Json.nullable?_ofOption`,
`JavaType.tagged?_taggedJson`.
-/
import CallChain.JavaType.Json

namespace CallChain

namespace Json

theorem field?_of_mem {name : String} {v : Json} : ∀ {fields : List (String × Json)},
    (fields.map Prod.fst).Nodup → (name, v) ∈ fields → field? name fields = some v
  | [], _, h => by cases h
  | (k, w) :: fs, distinct, h => by
    rw [List.map_cons, List.nodup_cons] at distinct
    rw [field?]
    rcases List.mem_cons.1 h with heq | hmem
    · cases heq
      rw [if_pos rfl]
    · have hne : k ≠ name := by
        rintro rfl
        exact distinct.1 (List.mem_map.2 ⟨_, hmem, rfl⟩)
      rw [if_neg hne]
      exact field?_of_mem distinct.2 hmem

theorem objectSlots_obj {names : List String} {fields : List (String × Json)}
    (hnames : fields.map Prod.fst = names) (distinct : names.Nodup) :
    objectSlots names (.obj fields) = some (fields.map fun f => some f.2) := by
  subst hnames
  have hone : ((fields.map Prod.fst).any fun n => 1 < fieldCount n fields) = false := by
    rw [List.any_eq_false]
    intro n _
    have hle : fieldCount n fields ≤ 1 := List.nodup_iff_count.1 distinct n
    simpa using hle
  rw [objectSlots, hone]
  simp only [Bool.false_eq_true, ↓reduceIte, Option.some.injEq, List.map_map]
  apply List.map_congr_left
  intro f hf
  exact field?_of_mem distinct hf

/-- The fields of a record are those asked for, if it has just these. -/
theorem slots_obj {names : List String} {fields : List (String × Json)}
    (hnames : fields.map Prod.fst = names) (distinct : names.Nodup) :
    slots names (.obj fields) = some (fields.map fun f => some f.2) :=
  objectSlots_obj hnames distinct

/-- A list is read back if its items are. -/
theorem list?_map {α : Type} {write : α → Json} {read? : Json → Option α}
    (h : ∀ a, read? (write a) = some a) (as : List α) :
    list? read? (.arr (as.map write)) = some as := by
  rw [list?, List.mapM_map]
  induction as with
  | nil => rfl
  | cons a as ih => simp [List.mapM_cons, h, ih]

theorem list?_ofStrings (ss : List String) : list? str? (ofStrings ss) = some ss := by
  have h : ∀ s, str? (.str s) = some s := fun _ => rfl
  exact list?_map h ss

/-- A part that may be missing is read back if null does not stand for one. -/
theorem nullable?_ofOption {α : Type} {write : α → Json} {read? : Json → Option α}
    (h : ∀ a, read? (write a) = some a) (hnull : ∀ a, write a ≠ .null) (o : Option α) :
    nullable? read? (ofOption write o) = some o := by
  cases o with
  | none => rfl
  | some a =>
    rw [ofOption]
    unfold nullable?
    split
    · rename_i heq
      exact absurd heq (hnull a)
    · rw [h, Option.map_some]

theorem nullable?_str (o : Option String) : nullable? str? (ofOption .str o) = some o := by
  have h : ∀ s, str? (.str s) = some s := fun _ => rfl
  exact nullable?_ofOption h (fun _ => nofun) o

end Json

/-- An alternative whose kind is written before its content is not held back. -/
theorem JavaType.tagged?_taggedJson (names : List String) (held : Bool) (tag : String)
    (content : Json) :
    (taggedJson tag content).tagged? names held = some ⟨tag, some content, held⟩ := by
  simp [taggedJson, Json.tagged?, Json.fieldCount, Json.field?, Json.tag?, List.findIdx_cons]

end CallChain
