/-
# Blank characters and trimming

A blank is a character with the Unicode property White_Space. `trim` takes
the blanks off both ends of a text; what is left has none there, and is left as
it is when it is trimmed again (`trim_trim`).

Key definitions: `Text.isBlank`, `Text.trim`.
-/
namespace CallChain.Text

/-- The characters with the property White_Space. -/
def isBlank (c : Char) : Bool :=
  let n := c.toNat
  (0x9 ≤ n && n ≤ 0xD) || n == 0x20 || n == 0x85 || n == 0xA0 || n == 0x1680 ||
    (0x2000 ≤ n && n ≤ 0x200A) || n == 0x2028 || n == 0x2029 || n == 0x202F || n == 0x205F ||
    n == 0x3000

/-- The characters between the outermost characters that are not blank. -/
def trimChars (cs : List Char) : List Char :=
  ((cs.dropWhile isBlank).reverse.dropWhile isBlank).reverse

/-- The text without the blanks at its ends. -/
def trim (s : String) : String := String.ofList (trimChars s.toList)

theorem getLast?_trimChars {cs : List Char} {c : Char} (h : c ∈ (trimChars cs).getLast?) :
    isBlank c = false := by
  rw [trimChars, List.getLast?_reverse, Option.mem_def] at h
  have := List.head?_dropWhile_not isBlank (cs.dropWhile isBlank).reverse
  rw [h] at this
  simpa using this

theorem head?_trimChars {cs : List Char} {c : Char} (h : c ∈ (trimChars cs).head?) :
    isBlank c = false := by
  have hprefix : trimChars cs <+: cs.dropWhile isBlank := by
    rw [trimChars, ← List.reverse_suffix, List.reverse_reverse]
    exact List.dropWhile_suffix isBlank
  have hfirst := List.head?_dropWhile_not isBlank cs
  obtain ⟨rest, hrest⟩ := hprefix
  rw [← hrest, List.head?_append, Option.mem_def.1 h] at hfirst
  simpa using hfirst

theorem dropWhile_of_head? {α : Type} {p : α → Bool} {l : List α} (h : ∀ a ∈ l.head?, p a = false) :
    l.dropWhile p = l := by
  cases l with
  | nil => rfl
  | cons a l => simp [h a rfl]

theorem trimChars_trimChars (cs : List Char) : trimChars (trimChars cs) = trimChars cs := by
  have hfirst : (trimChars cs).dropWhile isBlank = trimChars cs :=
    dropWhile_of_head? fun _ => head?_trimChars
  have hlast : (trimChars cs).reverse.dropWhile isBlank = (trimChars cs).reverse :=
    dropWhile_of_head? fun _ hc => getLast?_trimChars (List.head?_reverse ▸ hc)
  rw [trimChars, hfirst, hlast, List.reverse_reverse]

@[simp]
theorem trim_trim (s : String) : trim (trim s) = trim s := by
  rw [trim, trim, String.toList_ofList, trimChars_trimChars]

end CallChain.Text
