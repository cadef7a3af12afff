/-
# Taking a JSON value apart

What a decoder asks of a value: a number, a text, a list, the fields of a
record. A record is an object, in which fields of other names are ignored and
a field may not repeat, or an array of the fields' values in order, from
which fields at the end may be missing.

Key definitions: `Json.slots`, `Json.tag?`, `Json.tagged?`.
-/
import CallChain.Json.Value

namespace CallChain.Json

/-- A number that counts something. -/
def nat? : Json → Option Nat
  | .num (.ofNat n) => some n
  | _ => none

/-- A text. -/
def str? : Json → Option String
  | .str s => some s
  | _ => none

/-- A truth value. -/
def bool? : Json → Option Bool
  | .bool b => some b
  | _ => none

/-- A list of what `f` decodes. -/
def list? {α : Type} (f : Json → Option α) : Json → Option (List α)
  | .arr items => items.mapM f
  | _ => none

/-- What `f` decodes, or null for nothing. -/
def nullable? {α : Type} (f : Json → Option α) : Json → Option (Option α)
  | .null => some none
  | v => (f v).map some

/-- A text, or null for none. -/
def ofOption {α : Type} (f : α → Json) : Option α → Json
  | none => .null
  | some a => f a

/-- A list of texts. -/
def ofStrings (ss : List String) : Json := .arr (ss.map .str)

/-- The values of the named fields of an object, `none` for a missing one. -/
def objectSlots (names : List String) : Json → Option (List (Option Json))
  | .obj fields =>
    if names.any fun n => 1 < fieldCount n fields then none
    else some (names.map fun n => field? n fields)
  | _ => none

/-- The values of the named fields of a record, `none` for a missing one. -/
def slots (names : List String) : Json → Option (List (Option Json))
  | .arr items =>
    if names.length < items.length then none
    else some (items.map some ++ List.replicate (names.length - items.length) none)
  | v => objectSlots names v

/-- What `f` decodes of a field, or `d` if it is missing. -/
def optional {α : Type} (d : α) (f : Json → Option α) : Option Json → Option α
  | none => some d
  | some v => f v

/-- The name of an alternative without content: the name as a text, or as the
only field of an object, with null (or, in a value that is `held`, an empty
object) for the content. -/
def tag? (held : Bool) : Json → Option String
  | .str s => some s
  | .obj [(s, .null)] => some s
  | .obj [(s, .obj [])] => if held then some s else none
  | _ => none

/-- An alternative with its content: the name, the content, and whether the
content was held back until the name was known. -/
structure Tagged where
  tag : String
  content : Option Json
  held : Bool

/-- The name that heads an array of a name and a content: a text or, in a
value that is `held`, the position of the name among `names`. -/
def headTag? (held : Bool) (names : List String) : Json → Option String
  | .str s => some s
  | .num (.ofNat n) => if held then names[n]? else none
  | _ => none

/-- One of the alternatives called `names`, in the fields "kind" and "data" of
an object, or in an array of the two. Content that comes before its kind is
held back, and then must be readable throughout. -/
def tagged? (names : List String) (held : Bool) : Json → Option Tagged
  | .obj fields =>
    if fieldCount "kind" fields != 1 || 1 < fieldCount "data" fields then none
    else do
      let tag ← (← field? "kind" fields) |> tag? held
      match field? "data" fields with
      | none => some ⟨tag, none, held⟩
      | some content =>
        let early := fields.findIdx (·.1 == "data") < fields.findIdx (·.1 == "kind")
        if early && !content.isReadable then none else some ⟨tag, some content, held || early⟩
  | .arr [head, content] => do some ⟨← headTag? held names head, some content, held⟩
  | _ => none

/-- The content of an alternative is smaller than the alternative. -/
theorem sizeOf_content_lt {names : List String} {held : Bool} {v c : Json} {t : Tagged}
    (h : tagged? names held v = some t) (hc : t.content = some c) : sizeOf c < sizeOf v := by
  unfold tagged? at h
  split at h
  · rename_i fields
    split at h
    · cases h
    · cases hk : field? "kind" fields with
      | none => simp [hk] at h
      | some k =>
        cases ht : tag? held k with
        | none => simp [hk, ht] at h
        | some tag =>
          cases hd : field? "data" fields with
          | none =>
            simp [hk, ht, hd] at h
            subst h
            cases hc
          | some d =>
            have hlt := sizeOf_field?_lt hd
            have : t.content = some d := by
              simp only [hk, ht, hd, Option.bind_eq_bind, Option.bind_some] at h
              split at h
              · cases h
              · cases h
                rfl
            rw [this] at hc
            cases hc
            simp
            omega
  · rename_i head content
    cases ht : headTag? held names head with
    | none => simp [ht] at h
    | some s =>
      simp [ht] at h
      subst h
      cases hc
      simp
      omega
  · cases h

theorem sizeOf_slot_lt {names : List String} {v w : Json} {ss : List (Option Json)}
    (h : objectSlots names v = some ss) (hw : some w ∈ ss) : sizeOf w < sizeOf v := by
  unfold objectSlots at h
  split at h
  · split at h
    · cases h
    · cases h
      obtain ⟨n, _, hn⟩ := List.mem_map.1 hw
      have := sizeOf_field?_lt hn
      simp
      omega
  · cases h

end CallChain.Json
