/-
# Names made of identifiers

An identifier has letters, digits, `_` and `$` only, and does not begin with a
digit; a full name is made of identifiers with dots between them. The `$` in
the name of a nested type belongs to an identifier. In such names no mark of a
signature occurs.

Key definitions: `JavaName.isIdentifier`, `JavaName.isFullName`,
`JavaType.IsWellNamed`.
-/
import CallChain.Proofs.JavaType.Signature

namespace CallChain

namespace JavaName

/-- Whether a character may stand in an identifier. All characters outside of
ASCII are taken for letters. -/
def isPart (c : Char) : Bool := c.isAlphanum || c == '_' || c == '$' || 0x80 ≤ c.toNat

/-- Whether a name is an identifier. -/
def isIdentifier (name : String) : Bool :=
  match name.toList with
  | [] => false
  | c :: cs => !c.isDigit && (c :: cs).all isPart

/-- Whether a name is made of identifiers with dots between them. -/
def isFullName (name : String) : Bool := (Text.split '.' name).all isIdentifier

example : isFullName "p.Outer$Inner" = true ∧ isFullName "p..T" = false ∧
    isFullName "p.2T" = false ∧ isIdentifier "p.T" = false := by decide

variable {name : String} {p : Char → Bool}

theorem isPart_of_isIdentifier (h : isIdentifier name = true) :
    ∀ c ∈ name.toList, isPart c = true := by
  unfold isIdentifier at h
  cases hname : name.toList with
  | nil => simp
  | cons c cs =>
    rw [hname, Bool.and_eq_true, List.all_eq_true] at h
    exact h.2

theorem avoids_of_isIdentifier (h : isIdentifier name = true)
    (marks : ∀ c, p c = true → isPart c = false) : Text.Avoids p name := by
  intro c hc
  have hpart := isPart_of_isIdentifier h c hc
  cases hmark : p c with
  | false => rfl
  | true =>
    rw [marks c hmark] at hpart
    cases hpart

theorem avoids_of_isFullName (h : isFullName name = true)
    (marks : ∀ c, p c = true → isPart c = false) (dot : p '.' = false) : Text.Avoids p name := by
  have hjoined : ∀ {pieces : List (List Char)}, (∀ cs ∈ pieces, ∀ c ∈ cs, p c = false) →
      ∀ c ∈ Text.joinWith '.' pieces, p c = false := by
    intro pieces hpieces c hc
    induction pieces with
    | nil => cases hc
    | cons cs rest ih =>
      rw [List.forall_mem_cons] at hpieces
      cases rest with
      | nil => exact hpieces.1 c hc
      | cons ds rest =>
        rw [Text.joinWith, List.mem_append, List.mem_cons] at hc
        rcases hc with hc | rfl | hc
        · exact hpieces.1 c hc
        · exact dot
        · exact ih hpieces.2 hc
  rw [isFullName, Text.split, List.all_eq_true, List.forall_mem_map] at h
  intro c hc
  rw [← Text.joinWith_pieces '.' name.toList] at hc
  refine hjoined (fun cs hcs d hd => ?_) c hc
  exact avoids_of_isIdentifier (h cs hcs) marks d (by rwa [String.toList_ofList])

/-- No mark of signatures occurs in a full name. -/
theorem avoids_separators (h : isFullName name = true) : Text.Avoids isSeparator name := by
  refine avoids_of_isFullName h (fun c hc => ?_) (by decide)
  rw [isSeparator, Bool.or_eq_true, beq_iff_eq, beq_iff_eq] at hc
  rcases hc with rfl | rfl <;> decide

end JavaName

namespace JavaType

/-- The name that the signature of a type shows is an identifier if it is plain,
and made of identifiers if it is full. -/
def IsWellNamed (t : JavaType) : Prop :=
  t.Shows (JavaName.isIdentifier · = true) (JavaName.isFullName · = true)

instance (t : JavaType) : Decidable t.IsWellNamed := Shows.decidable t

variable {t : JavaType} {p : Char → Bool}

theorem IsWellNamed.isSpelt (h : t.IsWellNamed) : t.IsSpelt := by
  refine h.imp (fun name hname => ?_) fun name hname => JavaName.avoids_separators hname
  refine JavaName.avoids_of_isIdentifier hname fun c hc => ?_
  rw [beq_iff_eq.1 hc]
  decide

/-- The characters that stand in signatures whatever the names. -/
def signatureMarks : List Char := ['L', 'T', '/', ';', '['] ++ signatureLetters

/-- A signature avoids what neither it nor its name has. -/
theorem avoids_signature (marks : ∀ c ∈ signatureMarks, p c = false) :
    ∀ {t : JavaType}, t.Shows (Text.Avoids p) (Text.Avoids p) → Text.Avoids p t.signature
  | plain name, h => by
    intro x hx
    have hletters : ∀ e ∈ letters, e.2 ∈ signatureMarks := by decide
    rcases signature_plain name with ⟨c, hc, hletter⟩ | hname
    · rw [hletter, List.mem_singleton] at hx
      rw [hx]
      exact marks _ (hletters _ hc)
    · rw [hname, List.mem_cons, List.mem_append, List.mem_singleton] at hx
      rcases hx with rfl | hx | rfl
      · exact marks _ (by decide)
      · exact h x hx
      · exact marks _ (by decide)
  | named name, h => by
    intro x hx
    rw [signature_named, List.mem_cons, List.mem_append, List.mem_singleton, Text.swap,
      String.toList_ofList, List.mem_map] at hx
    rcases hx with rfl | ⟨c, hc, rfl⟩ | rfl
    · exact marks _ (by decide)
    · split
      · exact marks _ (by decide)
      · exact h c hc
    · exact marks _ (by decide)
  | applied base _, h => avoids_signature marks (t := base) h
  | array element dims, h => by
    have helement : Text.Avoids p element.signature := avoids_signature marks (t := element) h
    have hbracket : Text.Avoids p "[" := by
      intro x hx
      rw [show "[".toList = ['['] from rfl, List.mem_singleton] at hx
      rw [hx]
      exact marks _ (by decide)
    exact (hbracket.copies dims).append helement
  | unresolved, _ => by
    intro x hx
    rw [show unresolved.signature.toList = ['?'] from rfl, List.mem_singleton] at hx
    rw [hx]
    exact marks _ (by decide)

end JavaType

end CallChain
