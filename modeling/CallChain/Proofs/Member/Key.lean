/-
# Keys tell members apart

The key of a member is made of its owner's signature, its name, the signatures
of its parameters and that of its type. Where names have none of the marks that
divide a key, all of these are read back from it: the owner, being a signature,
and the dot; the name up to the first parenthesis, which tells fields from
methods; the signatures in the parentheses one by one; and what is left. So
members with one key are the same, up to arguments of their types; for a local
variable only the name counts.

Key definitions: `Member.IsKeyed`, `Member.SameErased`.
Key theorems: `Member.sameErased_of_key_eq`, `Member.key_tells_apart`.
-/
import CallChain.Member.Basic
import CallChain.Proofs.JavaType.Signature

namespace CallChain

namespace Member

/-- The names in the key of a member have none of the marks that divide it. -/
structure IsKeyed (m : Member) : Prop where
  kind : m.kind ≠ .constructor
  name : Text.Avoids Text.isParenthesis m.name
  owner : ∀ owner ∈ m.owner, Text.Avoids JavaName.isSeparator owner
  type : m.type.IsSpelt
  parameters : ∀ type ∈ m.parameterTypes, type.IsSpelt

instance (m : Member) : Decidable m.IsKeyed :=
  decidable_of_iff
    (m.kind ≠ .constructor ∧ Text.Avoids Text.isParenthesis m.name ∧
      (∀ owner ∈ m.owner, Text.Avoids JavaName.isSeparator owner) ∧ m.type.IsSpelt ∧
      ∀ type ∈ m.parameterTypes, type.IsSpelt)
    ⟨fun ⟨h, k, l, n, o⟩ => ⟨h, k, l, n, o⟩, fun ⟨h, k, l, n, o⟩ => ⟨h, k, l, n, o⟩⟩

/-- The members are the same up to arguments of their types: local variables of
one name, or fields or methods of one owner and name whose types, and those of
their parameters, have the same signatures. -/
inductive SameErased (a b : Member) : Prop where
  | localVars (kind_left : a.kind = .localVar) (kind_right : b.kind = .localVar)
      (name : a.name = b.name)
  | declared (kind : a.kind = b.kind) (owner : a.owner = b.owner) (name : a.name = b.name)
      (parameters : a.kind = .method →
        a.parameterTypes.map JavaType.signature = b.parameterTypes.map JavaType.signature)
      (type : a.type.signature = b.type.signature)

/-- What the key of a field or method starts with. -/
def ownerText (m : Member) : String := m.ownerSignature?.getD ""

/-- The parenthesis after the name in the key of a field or method. -/
def keyMark (m : Member) : Char := if m.kind = .field then ')' else '('

/-- What follows on that parenthesis. -/
def keyEnd (m : Member) : List Char :=
  if m.kind = .field then m.type.signature.toList
  else (m.parameterTypes.map fun type => type.signature.toList).flatten ++
    ')' :: m.type.signature.toList

variable {a b m : Member} {xs ys : List Char}

theorem toList_parameterSignatures (m : Member) : m.parameterSignatures.toList =
    (m.parameterTypes.map fun type => type.signature.toList).flatten := by
  rw [parameterSignatures, String.toList_join, List.flatMap_map, ← List.flatMap_def]

theorem toList_key_of_localVar (h : m.kind = .localVar) : m.key.toList = '#' :: m.name.toList := by
  simp [key, h, String.toList_append]

theorem toList_key_of_declared (h : m.kind ≠ .localVar) : m.key.toList =
    m.ownerText.toList ++ '.' :: (m.name.toList ++ m.keyMark :: m.keyEnd) := by
  unfold key keyMark keyEnd ownerText
  rw [← toList_parameterSignatures]
  cases hkind : m.kind with
  | localVar => exact absurd hkind h
  | field => simp [String.toList_append]
  | method => simp [String.toList_append]
  | constructor => simp [String.toList_append]

theorem ownerText_of_none (h : m.owner = none) : m.ownerText.toList = [] := by
  simp [ownerText, ownerSignature?, h]

theorem ownerText_of_some {owner : String} (h : m.owner = some owner) :
    m.ownerText = JavaName.signature owner := by
  simp [ownerText, ownerSignature?, h]

theorem key_ne_of_localVar (ha : a.kind = .localVar) (hb : b.kind ≠ .localVar) : a.key ≠ b.key := by
  intro h
  have hlists := congrArg String.toList h
  rw [toList_key_of_localVar ha, toList_key_of_declared hb] at hlists
  cases howner : b.owner with
  | none =>
    rw [ownerText_of_none howner] at hlists
    exact absurd (List.cons.inj hlists).1 (by decide)
  | some owner =>
    rw [ownerText_of_some howner, JavaName.toList_signature] at hlists
    exact absurd (List.cons.inj hlists).1 (by decide)

/-- The owner of a field or method is read back from its key. -/
theorem IsKeyed.owner_inj (ha : a.IsKeyed) (hb : b.IsKeyed)
    (h : a.ownerText.toList ++ '.' :: xs = b.ownerText.toList ++ '.' :: ys) :
    a.owner = b.owner ∧ xs = ys := by
  cases hownerA : a.owner with
  | none =>
    rw [ownerText_of_none hownerA] at h
    cases hownerB : b.owner with
    | none =>
      rw [ownerText_of_none hownerB] at h
      exact ⟨rfl, (List.cons.inj h).2⟩
    | some d =>
      rw [ownerText_of_some hownerB, JavaName.toList_signature] at h
      exact absurd (List.cons.inj h).1 (by decide)
  | some c =>
    rw [ownerText_of_some hownerA] at h
    cases hownerB : b.owner with
    | none =>
      rw [ownerText_of_none hownerB, JavaName.toList_signature] at h
      exact absurd (List.cons.inj h).1 (by decide)
    | some d =>
      rw [ownerText_of_some hownerB] at h
      have hc : Text.Avoids JavaName.isSeparator c := ha.owner c hownerA
      have hd : Text.Avoids JavaName.isSeparator d := hb.owner d hownerB
      have hsignature : ∀ {name : String}, Text.Avoids JavaName.isSeparator name →
          IsSignature (JavaName.signature name).toList := fun {name} hname =>
        JavaType.isSignature_signature (t := .named name) hname
      obtain ⟨hsame, hrest⟩ := (hsignature hc).append_inj (hsignature hd) h
      rw [JavaName.signature_inj hc hd (String.toList_inj.1 hsame)]
      exact ⟨rfl, (List.cons.inj hrest).2⟩

/-- What follows on the name is read back from the key of a field or method. -/
theorem IsKeyed.keyEnd_inj (ha : a.IsKeyed) (hb : b.IsKeyed) (declared_a : a.kind ≠ .localVar)
    (declared_b : b.kind ≠ .localVar) (hmark : a.keyMark = b.keyMark) (hend : a.keyEnd = b.keyEnd) :
    a.kind = b.kind ∧ (a.kind = .method →
        a.parameterTypes.map JavaType.signature = b.parameterTypes.map JavaType.signature) ∧
      a.type.signature = b.type.signature := by
  have hkind : ∀ {m : Member}, m.IsKeyed → m.kind ≠ .localVar → m.kind = .field ∨ m.kind = .method := by
    intro m hm hdeclared
    cases hk : m.kind with
    | field => exact .inl rfl
    | method => exact .inr rfl
    | constructor => exact absurd hk hm.kind
    | localVar => exact absurd hk hdeclared
  rcases hkind ha declared_a with hfa | hma <;> rcases hkind hb declared_b with hfb | hmb
  · rw [keyEnd, keyEnd, if_pos hfa, if_pos hfb] at hend
    exact ⟨hfa.trans hfb.symm, by simp [hfa], String.toList_inj.1 hend⟩
  · simp [keyMark, hfa, hmb] at hmark
  · simp [keyMark, hma, hfb] at hmark
  · rw [keyEnd, keyEnd, if_neg (by simp [hma]), if_neg (by simp [hmb])] at hend
    obtain ⟨hparameters, htype⟩ := JavaType.signatures_inj ha.parameters hb.parameters hend
    exact ⟨hma.trans hmb.symm, fun _ => hparameters, String.toList_inj.1 htype⟩

theorem IsKeyed.sameErased_of_key_eq (ha : a.IsKeyed) (hb : b.IsKeyed) (h : a.key = b.key) :
    a.SameErased b := by
  by_cases hla : a.kind = .localVar
  · by_cases hlb : b.kind = .localVar
    · have hlists := congrArg String.toList h
      rw [toList_key_of_localVar hla, toList_key_of_localVar hlb] at hlists
      exact .localVars hla hlb (String.toList_inj.1 (List.cons.inj hlists).2)
    · exact absurd h (key_ne_of_localVar hla hlb)
  · by_cases hlb : b.kind = .localVar
    · exact absurd h.symm (key_ne_of_localVar hlb hla)
    · have hlists := congrArg String.toList h
      rw [toList_key_of_declared hla, toList_key_of_declared hlb] at hlists
      have hmark : ∀ m : Member, Text.isParenthesis m.keyMark = true := by
        intro m
        unfold keyMark
        split <;> rfl
      obtain ⟨howner, hrest⟩ := ha.owner_inj hb hlists
      obtain ⟨hname, hsame, hend⟩ :=
        Text.append_cons_inj ha.name hb.name (hmark a) (hmark b) hrest
      obtain ⟨hkind, hparameters, htype⟩ := ha.keyEnd_inj hb hla hlb hsame hend
      exact .declared hkind howner (String.toList_inj.1 hname) hparameters htype

theorem SameErased.key_eq (h : a.SameErased b) (invoked : a.kind ≠ .constructor) :
    a.key = b.key := by
  rw [← String.toList_inj]
  cases h with
  | localVars hla hlb hname =>
    rw [toList_key_of_localVar hla, toList_key_of_localVar hlb, hname]
  | declared hkind howner hname hparameters htype =>
    by_cases hla : a.kind = .localVar
    · rw [toList_key_of_localVar hla, toList_key_of_localVar (hkind ▸ hla), hname]
    · have hend : a.keyEnd = b.keyEnd := by
        unfold keyEnd
        rw [hkind, htype]
        by_cases hfield : b.kind = .field
        · rw [if_pos hfield, if_pos hfield]
        · have hmethod : a.kind = .method := by
            cases hk : a.kind with
            | field => exact absurd (hkind ▸ hk) hfield
            | method => rfl
            | constructor => exact absurd hk invoked
            | localVar => exact absurd hk hla
          rw [if_neg hfield, if_neg hfield,
            JavaType.toList_signatures_congr (hparameters hmethod)]
      rw [toList_key_of_declared hla, toList_key_of_declared (hkind ▸ hla), ownerText, ownerText,
        ownerSignature?, ownerSignature?, keyMark, keyMark, howner, hname, hkind, hend]

/-- **Keys tell members apart.** Where the names of fields, methods and local
variables have none of the marks that divide a key, two of them have one key
exactly if they are the same up to arguments of their types. Of such types,
two have one signature exactly if they have as many dimensions and the same
element without arguments, if no array is applied to arguments. -/
theorem key_tells_apart :
    (∀ a b : Member, a.IsKeyed → b.IsKeyed → (a.key = b.key ↔ a.SameErased b)) ∧
    ∀ s t : JavaType, s.IsSpelt → t.IsSpelt → s.HasPlainBases → t.HasPlainBases →
      (s.signature = t.signature ↔
        s.dimensions = t.dimensions ∧ s.elementType.erased = t.elementType.erased) :=
  ⟨fun _ _ ha hb => ⟨ha.sameErased_of_key_eq hb, fun h => h.key_eq ha.kind⟩,
    fun _ _ => JavaType.signature_eq_iff⟩

end Member

namespace Register

/-- A matrix of lists. -/
def matrix (element : JavaType) : JavaType := .array (.applied (.named "p.List") [element]) 2

/-- A method that finds a cell of a matrix. -/
def find (element : JavaType) : Member :=
  .method "p.Table" "find" [matrix element, .plain "int", .plain "K"] (.named "p.Cell")

/-- Two methods that differ in an argument have one key; a field of the name, and
a method with a row in place of the matrix, have others. -/
theorem tells_apart_register :
    let lists := find (.plain "T")
    let rows := find (.named "p.Row")
    let other : Member :=
      .method "p.Table" "find" [.array (.named "p.List") 1, .plain "int", .plain "K"] (.named "p.Cell")
    let field : Member := .field "p.Table" "find" (.named "p.Cell")
    (lists.IsKeyed ∧ rows.IsKeyed ∧ other.IsKeyed ∧ field.IsKeyed) ∧
    lists.key = "Lp/Table;.find([[Lp/List;ITK;)Lp/Cell;" ∧ lists.key = rows.key ∧
    lists.SameErased rows ∧ ¬ lists.SameErased other ∧ ¬ lists.SameErased field ∧
    (matrix (.plain "T")).signature = (matrix (.named "p.Row")).signature ∧
    (matrix (.plain "T")).dimensions = (matrix (.named "p.Row")).dimensions ∧
    (matrix (.plain "T")).elementType.erased = (matrix (.named "p.Row")).elementType.erased := by
  intro lists rows other field
  have hlists : lists.IsKeyed := by decide
  have hrows : rows.IsKeyed := by decide
  have hother : other.IsKeyed := by decide
  have hfield : field.IsKeyed := by decide
  have hkey : lists.key = rows.key := by decide
  have hsignature : (matrix (.plain "T")).signature = (matrix (.named "p.Row")).signature := by decide
  have htypes := Member.key_tells_apart.2 (matrix (.plain "T")) (matrix (.named "p.Row"))
    (by decide) (by decide) (by decide) (by decide)
  obtain ⟨hdims, helement⟩ := htypes.1 hsignature
  refine ⟨⟨hlists, hrows, hother, hfield⟩, by decide, hkey, ?_, ?_, ?_, hsignature, hdims, helement⟩
  · exact (Member.key_tells_apart.1 lists rows hlists hrows).1 hkey
  · exact fun h => absurd ((Member.key_tells_apart.1 lists other hlists hother).2 h) (by decide)
  · exact fun h => absurd ((Member.key_tells_apart.1 lists field hlists hfield).2 h) (by decide)

end Register

end CallChain
