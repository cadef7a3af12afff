/-
# What is written spells the value

The characters that spell a value are told by rules, one for each shape of a
value: blanks may stand before every token of an array or object, and a number
or a text has the spelling that the writer gives it. On one line and over
several lines, a value is written by these rules, if its numbers have 64 bits
and no part of it is unreadable.

Key definitions: `Json.fits`, `Json.Spells`.
Key theorems: `Json.within_eq_self`, `Json.spells_compact`, `Json.spells_pretty`.
-/
import CallChain.Json.Reader
import CallChain.Json.Writer

namespace CallChain.Json

/-! ### Values that a document can hold -/

/-- Whether an integer is kept as it is: it has at most 64 bits. -/
def isWord (n : Int) : Bool := -Text.maxNegated64 ≤ n && n ≤ Text.maxNat64

mutual

/-- Whether a value has integers of 64 bits for its numbers, no unreadable
part, and at most `depth` levels of arrays and objects. -/
def fits : Nat → Json → Bool
  | 0, .arr _ => false
  | 0, .obj _ => false
  | d + 1, .arr items => itemsFit d items
  | d + 1, .obj fields => fieldsFit d fields
  | _, .null => true
  | _, .bool _ => true
  | _, .num n => isWord n
  | _, .real _ => false
  | _, .str _ => true
  | _, .unreadable => false

/-- `fits` for all items of an array. -/
def itemsFit : Nat → List Json → Bool
  | _, [] => true
  | d, v :: vs => fits d v && itemsFit d vs

/-- `fits` for all fields of an object. -/
def fieldsFit : Nat → List (String × Json) → Bool
  | _, [] => true
  | d, (_, v) :: fs => fits d v && fieldsFit d fs

end

mutual

/-- Nothing in a value that fits is nested too deep. -/
theorem within_eq_self : ∀ {d : Nat} {v : Json}, fits d v = true → within d v = v
  | 0, v, h => by cases v <;> simp_all [fits, within]
  | d + 1, .arr items, h => by
    rw [within, itemsWithin_eq_self (by rwa [fits] at h)]
  | d + 1, .obj fields, h => by
    rw [within, fieldsWithin_eq_self (by rwa [fits] at h)]
  | _ + 1, .null, _ => rfl
  | _ + 1, .bool _, _ => rfl
  | _ + 1, .num _, _ => rfl
  | _ + 1, .real _, h => by simp [fits] at h
  | _ + 1, .str _, _ => rfl
  | _ + 1, .unreadable, _ => rfl

theorem itemsWithin_eq_self : ∀ {d : Nat} {vs : List Json}, itemsFit d vs = true →
    itemsWithin d vs = vs
  | _, [], _ => by rw [itemsWithin]
  | d, v :: vs, h => by
    rw [itemsFit, Bool.and_eq_true] at h
    rw [itemsWithin, within_eq_self h.1, itemsWithin_eq_self h.2]

theorem fieldsWithin_eq_self : ∀ {d : Nat} {fs : List (String × Json)}, fieldsFit d fs = true →
    fieldsWithin d fs = fs
  | _, [], _ => by rw [fieldsWithin]
  | d, (k, v) :: fs, h => by
    rw [fieldsFit, Bool.and_eq_true] at h
    rw [fieldsWithin, within_eq_self h.1, fieldsWithin_eq_self h.2]

end

/-! ### Spellings -/

/-- Blanks, or nothing. -/
def Gap (g : List Char) : Prop := ∀ c ∈ g, isGap c = true

mutual

/-- The characters spell the value, without blanks around them. -/
inductive Spells : List Char → Json → Prop
  | null : Spells ['n', 'u', 'l', 'l'] .null
  | bool_true : Spells ['t', 'r', 'u', 'e'] (.bool true)
  | bool_false : Spells ['f', 'a', 'l', 's', 'e'] (.bool false)
  | num {n : Int} (h : isWord n = true) : Spells (intText n).toList (.num n)
  | str (s : String) : Spells (quoted s).toList (.str s)
  | noItems {g : List Char} (hg : Gap g) : Spells ('[' :: (g ++ [']'])) (.arr [])
  | arr {cs : List Char} {vs : List Json} (h : SpellsItems cs vs) : Spells ('[' :: cs) (.arr vs)
  | noFields {g : List Char} (hg : Gap g) : Spells ('\x7b' :: (g ++ ['\x7d'])) (.obj [])
  | obj {cs : List Char} {fs : List (String × Json)} (h : SpellsFields cs fs) :
      Spells ('\x7b' :: cs) (.obj fs)

/-- The characters spell the items of an array, up to its closing bracket. -/
inductive SpellsItems : List Char → List Json → Prop
  | last {g cs g' : List Char} {v : Json} (hg : Gap g) (h : Spells cs v) (hg' : Gap g') :
      SpellsItems (g ++ (cs ++ (g' ++ [']']))) [v]
  | cons {g cs g' ds : List Char} {v : Json} {vs : List Json} (hg : Gap g) (h : Spells cs v)
      (hg' : Gap g') (hds : SpellsItems ds vs) :
      SpellsItems (g ++ (cs ++ (g' ++ ',' :: ds))) (v :: vs)

/-- The characters spell the fields of an object, up to its closing brace. -/
inductive SpellsFields : List Char → List (String × Json) → Prop
  | last {g g₁ g₂ cs g' : List Char} {k : String} {v : Json} (hg : Gap g) (hg₁ : Gap g₁)
      (hg₂ : Gap g₂) (h : Spells cs v) (hg' : Gap g') :
      SpellsFields (g ++ ((quoted k).toList ++ (g₁ ++ ':' :: (g₂ ++ (cs ++ (g' ++ ['\x7d']))))))
        [(k, v)]
  | cons {g g₁ g₂ cs g' ds : List Char} {k : String} {v : Json} {fs : List (String × Json)}
      (hg : Gap g) (hg₁ : Gap g₁) (hg₂ : Gap g₂) (h : Spells cs v) (hg' : Gap g')
      (hds : SpellsFields ds fs) :
      SpellsFields (g ++ ((quoted k).toList ++ (g₁ ++ ':' :: (g₂ ++ (cs ++ (g' ++ ',' :: ds))))))
        ((k, v) :: fs)

end

theorem gap_nil : Gap [] := fun _ h => absurd h List.not_mem_nil

theorem gap_blank : Gap [' '] := by simp [Gap, isGap]

theorem gap_newLine (level : Nat) : Gap (newLine level).toList := by
  simp [Gap, newLine, isGap]

theorem spells_leafText {d : Nat} {v : Json} (h : fits d v = true) (harr : ∀ vs, v ≠ .arr vs)
    (hobj : ∀ fs, v ≠ .obj fs) : Spells (leafText v).toList v := by
  cases v with
  | null => exact .null
  | bool b => cases b with
    | true => exact .bool_true
    | false => exact .bool_false
  | num n => exact .num (by rwa [fits] at h)
  | real l =>
    rw [fits] at h
    cases h
  | str s => exact .str s
  | arr vs => exact absurd rfl (harr vs)
  | obj fs => exact absurd rfl (hobj fs)
  | unreadable =>
    rw [fits] at h
    cases h

/-! ### On one line -/

mutual

/-- **A value that fits is spelled on one line.** -/
theorem spells_compact : ∀ {d : Nat} {v : Json}, fits d v = true → Spells (compact v).toList v
  | 0, .arr vs, h => by simp [fits] at h
  | _ + 1, .arr [], _ => Spells.noItems gap_nil
  | d + 1, .arr (v :: vs), h => by
    have hitems : SpellsItems ((compactItems (v :: vs)).toList ++ [']']) (v :: vs) :=
      spellsItems_compact (d := d) (by rwa [fits] at h)
    simpa [compact] using Spells.arr hitems
  | 0, .obj fs, h => by simp [fits] at h
  | _ + 1, .obj [], _ => Spells.noFields gap_nil
  | d + 1, .obj (f :: fs), h => by
    have hfields : SpellsFields ((compactFields (f :: fs)).toList ++ ['\x7d']) (f :: fs) :=
      spellsFields_compact (d := d) (by rwa [fits] at h)
    simpa [compact] using Spells.obj hfields
  | _, .null, h => by simpa [compact] using spells_leafText h nofun nofun
  | _, .bool _, h => by simpa [compact] using spells_leafText h nofun nofun
  | _, .num _, h => by simpa [compact] using spells_leafText h nofun nofun
  | _, .real _, h => by simpa [compact] using spells_leafText h nofun nofun
  | _, .str _, h => by simpa [compact] using spells_leafText h nofun nofun
  | _, .unreadable, h => by simpa [compact] using spells_leafText h nofun nofun

theorem spellsItems_compact : ∀ {d : Nat} {v : Json} {vs : List Json},
    itemsFit d (v :: vs) = true →
    SpellsItems ((compactItems (v :: vs)).toList ++ [']']) (v :: vs)
  | d, v, [], h => by
    have hv : fits d v = true := by simpa [itemsFit] using h
    simpa [compactItems] using SpellsItems.last gap_nil (spells_compact hv) gap_nil
  | d, v, w :: vs, h => by
    rw [itemsFit, Bool.and_eq_true] at h
    have hrest := spellsItems_compact h.2
    simpa [compactItems] using SpellsItems.cons gap_nil (spells_compact h.1) gap_nil hrest

theorem spellsFields_compact : ∀ {d : Nat} {f : String × Json} {fs : List (String × Json)},
    fieldsFit d (f :: fs) = true →
    SpellsFields ((compactFields (f :: fs)).toList ++ ['\x7d']) (f :: fs)
  | d, (k, v), [], h => by
    have hv : fits d v = true := by simpa [fieldsFit] using h
    simpa [compactFields] using
      SpellsFields.last (k := k) gap_nil gap_nil gap_nil (spells_compact hv) gap_nil
  | d, (k, v), f :: fs, h => by
    rw [fieldsFit, Bool.and_eq_true] at h
    have hrest := spellsFields_compact h.2
    simpa [compactFields] using
      SpellsFields.cons (k := k) gap_nil gap_nil gap_nil (spells_compact h.1) gap_nil hrest

end

/-! ### Over several lines -/

mutual

theorem spells_prettyAt : ∀ {d : Nat} (level : Nat) {v : Json}, fits d v = true →
    Spells (prettyAt level v).toList v
  | 0, _, .arr _, h => by simp [fits] at h
  | _ + 1, _, .arr [], _ => by simpa [prettyAt] using Spells.noItems gap_nil
  | d + 1, level, .arr (v :: vs), h => by
    have hitems : SpellsItems
        ((prettyItems (level + 1) (v :: vs)).toList ++ ((newLine level).toList ++ [']'])) (v :: vs) :=
      spellsItems_prettyItems (d := d) (level + 1) (by rwa [fits] at h) (gap_newLine level)
    simpa [prettyAt] using Spells.arr hitems
  | 0, _, .obj _, h => by simp [fits] at h
  | _ + 1, _, .obj [], _ => by simpa [prettyAt] using Spells.noFields gap_nil
  | d + 1, level, .obj (f :: fs), h => by
    have hfields : SpellsFields
        ((prettyFields (level + 1) (f :: fs)).toList ++ ((newLine level).toList ++ ['\x7d']))
        (f :: fs) :=
      spellsFields_prettyFields (d := d) (level + 1) (by rwa [fits] at h) (gap_newLine level)
    simpa [prettyAt] using Spells.obj hfields
  | _, _, .null, h => by simpa [prettyAt] using spells_leafText h nofun nofun
  | _, _, .bool _, h => by simpa [prettyAt] using spells_leafText h nofun nofun
  | _, _, .num _, h => by simpa [prettyAt] using spells_leafText h nofun nofun
  | _, _, .real _, h => by simpa [prettyAt] using spells_leafText h nofun nofun
  | _, _, .str _, h => by simpa [prettyAt] using spells_leafText h nofun nofun
  | _, _, .unreadable, h => by simpa [prettyAt] using spells_leafText h nofun nofun

theorem spellsItems_prettyItems : ∀ {d : Nat} (level : Nat) {v : Json} {vs : List Json}
    {g : List Char}, itemsFit d (v :: vs) = true → Gap g →
    SpellsItems ((prettyItems level (v :: vs)).toList ++ (g ++ [']'])) (v :: vs)
  | d, level, v, [], g, h, hg => by
    have hv : fits d v = true := by simpa [itemsFit] using h
    simpa [prettyItems] using
      SpellsItems.last (gap_newLine level) (spells_prettyAt level hv) hg
  | d, level, v, w :: vs, g, h, hg => by
    rw [itemsFit, Bool.and_eq_true] at h
    have hrest := spellsItems_prettyItems level h.2 hg
    simpa [prettyItems] using
      SpellsItems.cons (gap_newLine level) (spells_prettyAt level h.1) gap_nil hrest

theorem spellsFields_prettyFields : ∀ {d : Nat} (level : Nat) {f : String × Json}
    {fs : List (String × Json)} {g : List Char}, fieldsFit d (f :: fs) = true → Gap g →
    SpellsFields ((prettyFields level (f :: fs)).toList ++ (g ++ ['\x7d'])) (f :: fs)
  | d, level, (k, v), [], g, h, hg => by
    have hv : fits d v = true := by simpa [fieldsFit] using h
    simpa [prettyFields] using
      SpellsFields.last (k := k) (gap_newLine level) gap_nil gap_blank
        (spells_prettyAt level hv) hg
  | d, level, (k, v), f :: fs, g, h, hg => by
    rw [fieldsFit, Bool.and_eq_true] at h
    have hrest := spellsFields_prettyFields level h.2 hg
    simpa [prettyFields] using
      SpellsFields.cons (k := k) (gap_newLine level) gap_nil gap_blank
        (spells_prettyAt level h.1) gap_nil hrest

end

/-- **A value that fits is spelled over several lines.** -/
theorem spells_pretty {d : Nat} {v : Json} (h : fits d v = true) : Spells (pretty v).toList v :=
  spells_prettyAt 0 h

end CallChain.Json
