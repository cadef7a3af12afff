/-
# Signatures read themselves

A signature is a letter, a name between a letter and a semicolon, or a bracket
before another signature. One can see where it ends, so that no signature is
the beginning of another, and signatures in a row are told apart (`IsSignature`
and its `append_inj`, `flatten_inj`). For this no name may have a semicolon.

What a signature shows of a type are its dimensions and the element under them
without arguments (`signature_eq`), unless an array stands under arguments: as
the base of an applied type it shows its dimensions, but they do not count. If
no full name has a slash, which stands for a dot, nothing else of the type is
lost (`signature_eq_iff`).

Key definitions: `IsSignature`, `JavaType.Shows`, `JavaType.IsSpelt`,
`JavaType.HasPlainBases`, `JavaType.erased`.
Key theorems: `IsSignature.append_inj`, `JavaType.isSignature_signature`,
`JavaType.signature_eq_iff`.
-/
import CallChain.Proofs.JavaType.Dimensions
import CallChain.Proofs.Text.Marks

namespace CallChain

/-! ### The code -/

/-- The letters that stand for void and the primitive types. -/
def JavaType.letters : List (String × Char) := ("void", 'V') :: primitives

/-- The letters that are signatures by themselves. -/
def signatureLetters : List Char := '?' :: JavaType.letters.map (·.2)

/-- The characters are a signature. -/
inductive IsSignature : List Char → Prop where
  | letter {c : Char} (single : c ∈ signatureLetters) : IsSignature [c]
  | name {c : Char} {cs : List Char} (opens : c = 'L' ∨ c = 'T') (text : ∀ x ∈ cs, (x == ';') = false) :
    IsSignature (c :: (cs ++ [';']))
  | array {cs : List Char} (element : IsSignature cs) : IsSignature ('[' :: cs)

namespace IsSignature

variable {u v xs ys : List Char}

theorem not_mem_letters {c : Char} (h : c = 'L' ∨ c = 'T' ∨ c = '[' ∨ c = ')') :
    c ∉ signatureLetters := by
  rcases h with rfl | rfl | rfl | rfl <;> decide

theorem head?_ne (h : IsSignature u) : (u ++ xs).head? ≠ some ')' := by
  cases h with
  | letter single =>
    intro hhead
    obtain rfl := Option.some.inj hhead
    exact absurd single (not_mem_letters (by decide))
  | name opens _ =>
    intro hhead
    obtain rfl := Option.some.inj hhead
    exact absurd opens (by decide)
  | array _ =>
    intro hhead
    exact absurd (Option.some.inj hhead) (by decide)

theorem ne_nil (h : IsSignature u) : u ≠ [] := by
  cases h <;> exact List.cons_ne_nil _ _

theorem brackets (h : IsSignature u) : ∀ n : Nat, IsSignature (List.replicate n '[' ++ u)
  | 0 => h
  | n + 1 => .array (h.brackets n)

/-- **Signatures are told apart from what follows them.** -/
theorem append_inj (hu : IsSignature u) (hv : IsSignature v) (h : u ++ xs = v ++ ys) :
    u = v ∧ xs = ys := by
  induction hu generalizing v with
  | letter single =>
    cases hv with
    | letter single' => simpa using h
    | name opens _ =>
      obtain ⟨rfl, -⟩ := List.cons.inj h
      exact absurd single (not_mem_letters (opens.imp_right .inl))
    | array _ =>
      obtain ⟨rfl, -⟩ := List.cons.inj h
      exact absurd single (not_mem_letters (by decide))
  | name opens text =>
    cases hv with
    | letter single =>
      obtain ⟨rfl, -⟩ := List.cons.inj h
      exact absurd single (not_mem_letters (opens.imp_right .inl))
    | name _ text' =>
      obtain ⟨rfl, hrest⟩ := List.cons.inj h
      simp only [List.append_eq, List.append_assoc] at hrest
      obtain ⟨rfl, -, rfl⟩ := Text.append_cons_inj text text' rfl rfl hrest
      exact ⟨rfl, rfl⟩
    | array _ =>
      obtain ⟨rfl, -⟩ := List.cons.inj h
      exact absurd opens (by decide)
  | array _ ih =>
    cases hv with
    | letter single =>
      obtain ⟨rfl, -⟩ := List.cons.inj h
      exact absurd single (not_mem_letters (by decide))
    | name opens _ =>
      obtain ⟨rfl, -⟩ := List.cons.inj h
      exact absurd opens (by decide)
    | array element =>
      obtain ⟨rfl, hxs⟩ := ih element (List.cons.inj h).2
      exact ⟨rfl, hxs⟩

/-- Signatures in a row, up to a closing parenthesis, are told apart. -/
theorem flatten_inj {us vs : List (List Char)} (hus : ∀ u ∈ us, IsSignature u)
    (hvs : ∀ v ∈ vs, IsSignature v) (h : us.flatten ++ ')' :: xs = vs.flatten ++ ')' :: ys) :
    us = vs ∧ xs = ys := by
  induction us generalizing vs with
  | nil =>
    cases vs with
    | nil => exact ⟨rfl, (List.cons.inj h).2⟩
    | cons v vs =>
      rw [List.flatten_cons, List.append_assoc] at h
      exact absurd (congrArg List.head? h).symm (hvs v List.mem_cons_self).head?_ne
  | cons u us ih =>
    rw [List.forall_mem_cons] at hus
    cases vs with
    | nil =>
      rw [List.flatten_cons, List.append_assoc] at h
      exact absurd (congrArg List.head? h) hus.1.head?_ne
    | cons v vs =>
      rw [List.forall_mem_cons] at hvs
      rw [List.flatten_cons, List.flatten_cons, List.append_assoc, List.append_assoc] at h
      obtain ⟨rfl, hrest⟩ := hus.1.append_inj hvs.1 h
      obtain ⟨rfl, hxs⟩ := ih hus.2 hvs.2 hrest
      exact ⟨rfl, hxs⟩

end IsSignature

/-! ### Names in signatures -/

namespace JavaName

/-- Whether a character separates the parts of a signature. -/
def isSeparator (c : Char) : Bool := c == '/' || c == ';'

theorem swap_swap {old new : Char} {s : String} (h : ∀ c ∈ s.toList, c ≠ new) :
    Text.swap new old (Text.swap old new s) = s := by
  have hchars : ∀ c ∈ s.toList,
      ((fun c => if c = new then old else c) ∘ fun c => if c = old then new else c) c = id c := by
    intro c hc
    by_cases hold : c = old
    · simp [hold]
    · simp [hold, h c hc]
  rw [Text.swap, Text.swap, String.toList_ofList, List.map_map, List.map_congr_left hchars,
    List.map_id, String.ofList_toList]

theorem toList_signature (name : String) :
    (signature name).toList = 'L' :: ((Text.swap '.' '/' name).toList ++ [';']) := by
  simp [signature, String.toList_append]

theorem ne_slash {name : String} (h : Text.Avoids isSeparator name) : ∀ c ∈ name.toList, c ≠ '/' := by
  rintro c hc rfl
  exact absurd (h '/' hc) (by decide)

theorem signature_inj {a b : String} (ha : Text.Avoids isSeparator a)
    (hb : Text.Avoids isSeparator b) (h : signature a = signature b) : a = b := by
  have hswap : Text.swap '.' '/' a = Text.swap '.' '/' b := by
    have hlists := congrArg String.toList h
    rw [toList_signature, toList_signature] at hlists
    exact String.toList_inj.1 (List.append_cancel_right (List.cons.inj hlists).2)
  rw [← swap_swap (ne_slash ha), ← swap_swap (ne_slash hb), hswap]

/-- A name without slashes starts with another if it does so with slashes for
dots. -/
theorem swap_prefix_iff {a b : String} (ha : Text.Avoids isSeparator a)
    (hb : Text.Avoids isSeparator b) :
    (Text.swap '.' '/' a).toList <+: (Text.swap '.' '/' b).toList ↔ a.toList <+: b.toList := by
  have hswap : ∀ {old new : Char} {s t : String}, s.toList <+: t.toList →
      (Text.swap old new s).toList <+: (Text.swap old new t).toList := by
    intro old new s t h
    rw [Text.swap, Text.swap, String.toList_ofList, String.toList_ofList]
    exact h.map _
  constructor
  · intro h
    rw [← swap_swap (ne_slash ha), ← swap_swap (ne_slash hb)]
    exact hswap h
  · exact hswap

/-- The signature of a type, whatever follows on it, starts with what is made of a
name exactly if the name of the type starts with that name. -/
theorem signatureStart_prefix_iff {name type : String} (hname : Text.Avoids isSeparator name)
    (htype : Text.Avoids isSeparator type) (trimmed : Text.trim name = name) (rest : List Char) :
    (signatureStart name).toList <+: (signature type).toList ++ rest ↔
      name.toList <+: type.toList := by
  have hstart : (signatureStart name).toList = 'L' :: (Text.swap '.' '/' name).toList := by
    rw [signatureStart, trimmed, String.toList_append]
    rfl
  have hend : ';' ∉ (Text.swap '.' '/' name).toList := by
    rw [Text.swap, String.toList_ofList, List.mem_map]
    rintro ⟨c, hc, hswapped⟩
    split at hswapped
    · exact absurd hswapped (by decide)
    · rw [hswapped] at hc
      exact absurd (hname ';' hc) (by decide)
  rw [hstart, toList_signature, List.cons_append, List.cons_prefix_cons, List.append_assoc,
    List.singleton_append, Text.prefix_append_cons_iff hend, swap_prefix_iff hname htype]
  exact and_iff_right rfl

end JavaName

namespace JavaType

variable {t : JavaType}

/-- The name that the signature of a type shows satisfies the condition for its
kind: plain, or full. A type without a name has nothing to satisfy. -/
def Shows (plainName fullName : String → Prop) : JavaType → Prop
  | plain name => plainName name
  | named name => fullName name
  | applied base _ => base.Shows plainName fullName
  | array element _ => element.Shows plainName fullName
  | unresolved => True

instance Shows.decidable {P Q : String → Prop} [DecidablePred P] [DecidablePred Q] :
    ∀ t : JavaType, Decidable (t.Shows P Q)
  | plain name => inferInstanceAs (Decidable (P name))
  | named name => inferInstanceAs (Decidable (Q name))
  | applied base _ => Shows.decidable base
  | array element _ => Shows.decidable element
  | unresolved => inferInstanceAs (Decidable True)

theorem Shows.imp {P Q P' Q' : String → Prop} (hP : ∀ name, P name → P' name)
    (hQ : ∀ name, Q name → Q' name) : ∀ {t : JavaType}, t.Shows P Q → t.Shows P' Q'
  | plain name, h => hP name h
  | named name, h => hQ name h
  | applied base _, h => Shows.imp (t := base) hP hQ h
  | array element _, h => Shows.imp (t := element) hP hQ h
  | unresolved, _ => trivial

/-- The name shown has no character that would end it: no semicolon, and no slash
in place of a dot. -/
def IsSpelt (t : JavaType) : Prop :=
  t.Shows (Text.Avoids (· == ';')) (Text.Avoids JavaName.isSeparator)

instance (t : JavaType) : Decidable t.IsSpelt := Shows.decidable t

/-- A plain name is shown as its letter, if it has one, or in full. -/
theorem signature_plain (name : String) :
    (∃ c, (name, c) ∈ letters ∧ (plain name).signature.toList = [c]) ∨
    (plain name).signature.toList = 'T' :: (name.toList ++ [';']) := by
  rw [signature]
  split
  · rename_i hvoid
    subst hvoid
    exact .inl ⟨'V', List.mem_cons_self, rfl⟩
  · split
    · rename_i c hc
      refine .inl ⟨c, List.mem_cons_of_mem _ ?_, String.toList_singleton c⟩
      obtain ⟨before, after, hsplit, -⟩ := List.lookup_eq_some_iff.1 hc
      rw [hsplit]
      simp
    · right
      simp [String.toList_append]

theorem signature_named (name : String) : (named name).signature.toList =
    'L' :: ((Text.swap '.' '/' name).toList ++ [';']) :=
  JavaName.toList_signature name

theorem toList_copies (n : Nat) : (Text.copies n "[").toList = List.replicate n '[' := by
  rw [Text.copies, String.toList_join]
  induction n with
  | zero => rfl
  | succ n ih =>
    rw [List.replicate_succ, List.flatMap_cons, ih]
    rfl

/-- **The signature of a type whose name is spelt with no mark is a signature.** -/
theorem isSignature_signature : ∀ {t : JavaType}, t.IsSpelt → IsSignature t.signature.toList
  | plain name, h => by
    rcases signature_plain name with ⟨c, hc, hletter⟩ | hname
    · rw [hletter]
      have hsub : ∀ e ∈ letters, e.2 ∈ signatureLetters := by decide
      exact .letter (hsub _ hc)
    · rw [hname]
      exact .name (.inr rfl) h
  | named name, h => by
    rw [signature_named]
    refine .name (.inl rfl) fun x hx => ?_
    rw [Text.swap, String.toList_ofList, List.mem_map] at hx
    obtain ⟨c, hc, rfl⟩ := hx
    split
    · rfl
    · exact (Bool.or_eq_false_iff.1 (h c hc)).2
  | applied base _, h => isSignature_signature (t := base) h
  | array element dims, h => by
    rw [signature, String.toList_append, toList_copies]
    exact (isSignature_signature (t := element) h).brackets dims
  | unresolved, _ => .letter (by decide)

theorem toList_signatures_congr {ss ts : List JavaType} (h : ss.map signature = ts.map signature) :
    (ss.map fun s => s.signature.toList) = ts.map fun t => t.signature.toList := by
  have hlists := congrArg (List.map String.toList) h
  rwa [List.map_map, List.map_map] at hlists

/-- The signatures of types, in a row up to a parenthesis, are read back. -/
theorem signatures_inj {ss ts : List JavaType} {xs ys : List Char} (hss : ∀ s ∈ ss, s.IsSpelt)
    (hts : ∀ t ∈ ts, t.IsSpelt)
    (h : (ss.map fun s => s.signature.toList).flatten ++ ')' :: xs =
      (ts.map fun t => t.signature.toList).flatten ++ ')' :: ys) :
    ss.map signature = ts.map signature ∧ xs = ys := by
  have hsignatures : ∀ {us : List JavaType}, (∀ u ∈ us, u.IsSpelt) →
      ∀ cs ∈ us.map fun u => u.signature.toList, IsSignature cs := by
    intro us hus cs hcs
    obtain ⟨u, hu, rfl⟩ := List.mem_map.1 hcs
    exact isSignature_signature (hus u hu)
  obtain ⟨hsame, hrest⟩ := IsSignature.flatten_inj (hsignatures hss) (hsignatures hts) h
  refine ⟨?_, hrest⟩
  have hstrings := congrArg (List.map String.ofList) hsame
  simpa [List.map_map, Function.comp_def] using hstrings

/-! ### What a signature shows -/

/-- A class or interface without its arguments; other types stay. -/
def erased : JavaType → JavaType
  | applied base _ => base.erased
  | t => t

/-- No array is applied to arguments. -/
def HasPlainBases : JavaType → Prop
  | applied base _ => base.isArray = false ∧ base.HasPlainBases
  | array element _ => element.HasPlainBases
  | _ => True

instance HasPlainBases.decidable : ∀ t : JavaType, Decidable t.HasPlainBases
  | plain _ | named _ | unresolved => inferInstanceAs (Decidable True)
  | applied base _ =>
    have := HasPlainBases.decidable base
    inferInstanceAs (Decidable (base.isArray = false ∧ base.HasPlainBases))
  | array element _ => HasPlainBases.decidable element

theorem signature_erased : ∀ t : JavaType, t.erased.signature = t.signature
  | applied base _ => signature_erased base
  | plain _ | named _ | array _ _ | unresolved => rfl

/-- A signature has a bracket for each dimension, and the signature of the
element without arguments. -/
theorem toList_signature (t : JavaType) :
    t.signature.toList = List.replicate t.dimensions '[' ++ t.elementType.erased.signature.toList := by
  rw [signature_erased, ← toList_copies, ← String.toList_append, ← signature_eq_copies]

/-- The type is a name without arguments and dimensions, or unresolved. -/
inductive IsFlat : JavaType → Prop where
  | plain (name : String) : IsFlat (.plain name)
  | named (name : String) : IsFlat (.named name)
  | unresolved : IsFlat .unresolved

theorem isFlat_erased : ∀ {t : JavaType}, t.HasPlainBases → t.elementType.erased.IsFlat
  | .plain name, _ => .plain name
  | .named name, _ => .named name
  | .applied base args, h => by
    have hbase := isFlat_erased h.2
    rwa [elementType_of_not_isArray h.1] at hbase
  | .array element _, h => isFlat_erased (t := element) h
  | .unresolved, _ => .unresolved

theorem Shows.erased {P Q : String → Prop} : ∀ {t : JavaType}, t.HasPlainBases → t.Shows P Q →
    t.elementType.erased.Shows P Q
  | .plain _, _, h => h
  | .named _, _, h => h
  | .applied base args, hbases, h => by
    have hbase := Shows.erased hbases.2 h
    rwa [elementType_of_not_isArray hbases.1] at hbase
  | .array element _, hbases, h => Shows.erased (t := element) hbases h
  | .unresolved, _, _ => trivial

namespace IsFlat

variable {s t : JavaType}

theorem ne_signature_plain (h : t.IsFlat) (other : ∀ name, t ≠ .plain name) (name : String) :
    (JavaType.plain name).signature.toList ≠ t.signature.toList := by
  have hsingle : ∀ e ∈ letters, e.2 ≠ '?' := by decide
  intro heq
  cases h with
  | plain name' => exact other name' rfl
  | named name' =>
    rw [signature_named] at heq
    rcases signature_plain name with ⟨c, -, hletter⟩ | hname
    · rw [hletter] at heq
      simp at heq
    · rw [hname] at heq
      exact absurd (List.cons.inj heq).1 (by decide)
  | unresolved =>
    rcases signature_plain name with ⟨c, hc, hletter⟩ | hname
    · rw [hletter] at heq
      exact hsingle _ hc (List.cons.inj heq).1
    · rw [hname] at heq
      exact absurd (List.cons.inj heq).1 (by decide)

theorem plain_inj {x y : String}
    (h : (JavaType.plain x).signature.toList = (JavaType.plain y).signature.toList) : x = y := by
  have hletters : ∀ e ∈ letters, ∀ f ∈ letters, e.2 = f.2 → e.1 = f.1 := by decide
  rcases signature_plain x with ⟨c, hc, hx⟩ | hx <;>
    rcases signature_plain y with ⟨d, hd, hy⟩ | hy <;> rw [hx, hy] at h
  · exact hletters _ hc _ hd (List.cons.inj h).1
  · simp at h
  · simp at h
  · exact String.toList_inj.1 (List.append_cancel_right (List.cons.inj h).2)

theorem signature_inj (hs : s.IsFlat) (ht : t.IsFlat) (spelt_s : s.IsSpelt) (spelt_t : t.IsSpelt)
    (h : s.signature.toList = t.signature.toList) : s = t := by
  cases hs with
  | plain x =>
    cases ht with
    | plain y => rw [plain_inj h]
    | named y => exact absurd h ((named y).ne_signature_plain (by simp) x)
    | unresolved => exact absurd h (unresolved.ne_signature_plain (by simp) x)
  | named x =>
    cases ht with
    | plain y => exact absurd h.symm ((named x).ne_signature_plain (by simp) y)
    | named y => rw [JavaName.signature_inj spelt_s spelt_t (String.toList_inj.1 h)]
    | unresolved =>
      rw [signature_named] at h
      exact absurd (List.cons.inj h).1 (by decide)
  | unresolved =>
    cases ht with
    | plain y => exact absurd h.symm (unresolved.ne_signature_plain (by simp) y)
    | named y =>
      rw [signature_named] at h
      exact absurd (List.cons.inj h).1 (by decide)
    | unresolved => rfl

theorem head?_ne (h : t.IsFlat) : t.signature.toList.head? ≠ some '[' := by
  have hletters : ∀ e ∈ letters, some e.2 ≠ some '[' := by decide
  cases h with
  | plain name =>
    rcases signature_plain name with ⟨c, hc, hletter⟩ | hname
    · rw [hletter]
      exact hletters _ hc
    · rw [hname]
      exact fun h => absurd (Option.some.inj h) (by decide)
  | named name =>
    rw [signature_named]
    exact fun h => absurd (Option.some.inj h) (by decide)
  | unresolved => decide

end IsFlat

theorem brackets_inj {cs ds : List Char} (hcs : cs.head? ≠ some '[') (hds : ds.head? ≠ some '[') :
    ∀ {m n : Nat}, List.replicate m '[' ++ cs = List.replicate n '[' ++ ds → m = n ∧ cs = ds
  | 0, 0, h => ⟨rfl, h⟩
  | 0, n + 1, h => absurd (congrArg List.head? h) hcs
  | m + 1, 0, h => absurd (congrArg List.head? h).symm hds
  | m + 1, n + 1, h => by
    obtain ⟨rfl, hrest⟩ := brackets_inj hcs hds (List.cons.inj h).2
    exact ⟨rfl, hrest⟩

/-- **Signatures show types up to arguments.** Types whose names are spelt with no
mark, and in which no array is applied to arguments, have one signature exactly
if they have as many dimensions and the same element without arguments. -/
theorem signature_eq_iff {s t : JavaType} (spelt_s : s.IsSpelt) (spelt_t : t.IsSpelt)
    (bases_s : s.HasPlainBases) (bases_t : t.HasPlainBases) :
    s.signature = t.signature ↔
      s.dimensions = t.dimensions ∧ s.elementType.erased = t.elementType.erased := by
  have hs := isFlat_erased bases_s
  have ht := isFlat_erased bases_t
  rw [← String.toList_inj, toList_signature s, toList_signature t]
  constructor
  · intro h
    obtain ⟨hdims, helement⟩ := brackets_inj hs.head?_ne ht.head?_ne h
    exact ⟨hdims, hs.signature_inj ht (Shows.erased bases_s spelt_s)
      (Shows.erased bases_t spelt_t) helement⟩
  · rintro ⟨hdims, helement⟩
    rw [hdims, helement]

end JavaType

end CallChain
