/-
# Every spelling of a value is read as the value

The reader takes the characters that spell a value, blanks between the tokens
included, to that value, and leaves what follows them. For texts this holds
character by character, for numbers because nothing that may follow a value
goes on with one, and for arrays and objects by induction on the calls left,
of which each character needs one at most.

Key definitions: `Json.Stops`, `Json.Reads`.
Key theorems: `Json.readString_escaped`, `Json.readNumber_intText`, `Json.reads`,
`Json.document?_of_spells`.
-/
import CallChain.Proofs.Json.Spelling
import Mathlib.Data.List.TakeWhile

namespace CallChain.Json

/-! ### Texts -/

theorem hexDigit?_hexDigit : ∀ n < 16, hexDigit? (hexDigit n) = some n := by decide

theorem readUnits_short {e c : Char} (h : shortEscape? e = some c) (cs : List Char) :
    readUnits ('\\' :: e :: cs) = (readUnits cs).map fun p => (.char c :: p.1, p.2) := by
  have he : e ≠ 'u' := by
    rintro rfl
    cases h
  rw [readUnits]
  · rw [h]
    cases readUnits cs <;> rfl
  · rintro a b c d rest rfl
    exact absurd rfl he

theorem readUnits_code {n : Nat} (h : n < 0x20) (cs : List Char) :
    readUnits ('\\' :: 'u' :: '0' :: '0' :: hexDigit (n / 16) :: hexDigit (n % 16) :: cs) =
      (readUnits cs).map fun p => (.code n :: p.1, p.2) := by
  have hzero : hexDigit? '0' = some 0 := by decide
  have hhigh := hexDigit?_hexDigit (n / 16) (by omega)
  have hlow := hexDigit?_hexDigit (n % 16) (by omega)
  have hsum : n / 16 * 16 + n % 16 = n := by omega
  rw [readUnits, hzero, hhigh, hlow]
  cases readUnits cs <;> simp [hsum]

theorem readUnits_plain {c : Char} (hquote : c ≠ '"') (hslash : c ≠ '\\') (h : 0x20 ≤ c.toNat)
    (cs : List Char) :
    readUnits (c :: cs) = (readUnits cs).map fun p => (.char c :: p.1, p.2) := by
  have hplain : (decide (c.toNat < 0x20) || c == '\\') = false := by
    simp [hslash, h]
  rw [readUnits]
  · rw [hplain]
    cases readUnits cs <;> rfl
  · exact hquote
  · rintro a b c d rest rfl
    exact absurd rfl hslash
  · rintro e rest rfl
    exact absurd rfl hslash

theorem unitChars?_code {n : Nat} (h : n < 0xD800) (us : List StringUnit) :
    unitChars? (.code n :: us) = (unitChars? us).map (Char.ofNat n :: ·) := by
  have hhigh : ¬ 0xD800 ≤ n := by omega
  rcases us with _ | ⟨⟨c⟩ | ⟨lo⟩, us⟩
  · simp [unitChars?, hhigh]
  · simp [unitChars?, hhigh]
  · simp [unitChars?, hhigh]
    omega

/-- A character is written as one unit, which stands for it. -/
theorem exists_unit (c : Char) : ∃ u : StringUnit,
    (∀ cs, readUnits (escape c ++ cs) = (readUnits cs).map fun p => (u :: p.1, p.2)) ∧
      ∀ us, unitChars? (u :: us) = (unitChars? us).map (c :: ·) := by
  have hself : Char.ofNat c.toNat = c := Char.ofNat_toNat c
  have hshort {e : Char} (he : shortEscape? e = some c) : ∃ u : StringUnit,
      (∀ cs, readUnits (['\\', e] ++ cs) = (readUnits cs).map fun p => (u :: p.1, p.2)) ∧
        ∀ us, unitChars? (u :: us) = (unitChars? us).map (c :: ·) :=
    ⟨.char c, readUnits_short he, fun _ => rfl⟩
  unfold escape
  split_ifs with hquote hslash hn hr ht hb hf hlow
  · exact hshort (by rw [hquote]; rfl)
  · exact hshort (by rw [hslash]; rfl)
  · exact hshort (by rw [hn]; rfl)
  · exact hshort (by rw [hr]; rfl)
  · exact hshort (by rw [ht]; rfl)
  · exact hshort (by rw [← hself, hb]; rfl)
  · exact hshort (by rw [← hself, hf]; rfl)
  · refine ⟨.code c.toNat, readUnits_code hlow, fun us => ?_⟩
    rw [unitChars?_code (by omega), hself]
  · exact ⟨.char c, readUnits_plain hquote hslash (by omega), fun _ => rfl⟩

theorem exists_units (rest : List Char) : ∀ cs : List Char, ∃ us : List StringUnit,
    readUnits (cs.flatMap escape ++ '"' :: rest) = some (us, rest) ∧ unitChars? us = some cs
  | [] => ⟨[], by simp [readUnits], rfl⟩
  | c :: cs => by
    obtain ⟨u, hread, hchar⟩ := exists_unit c
    obtain ⟨us, hreads, hchars⟩ := exists_units rest cs
    refine ⟨u :: us, ?_, ?_⟩
    · rw [List.flatMap_cons, List.append_assoc, hread, hreads, Option.map_some]
    · rw [hchar, hchars, Option.map_some]

/-- What is escaped is read as it was. -/
theorem readString_escaped (s : String) (rest : List Char) :
    readString (s.toList.flatMap escape ++ '"' :: rest) = some (some s, rest) := by
  obtain ⟨us, hreads, hchars⟩ := exists_units rest s.toList
  simp [readString, hreads, hchars]

/-! ### Numbers -/

/-- What may come after a value: nothing, a blank, a comma, a closing bracket or
a closing brace. -/
def Stops (rest : List Char) : Prop :=
  ∀ c ∈ rest.head?, isGap c = true ∨ c = ',' ∨ c = ']' ∨ c = '\x7d'

theorem Stops.cons {c : Char} (h : isGap c = true ∨ c = ',' ∨ c = ']' ∨ c = '\x7d')
    (rest : List Char) : Stops (c :: rest) := by
  rintro d hd
  obtain rfl : c = d := by simpa using hd
  exact h

/-- What may come after a value has no digits, no fraction and no exponent in
front. -/
theorem Stops.number {rest : List Char} (h : Stops rest) :
    rest.takeWhile Char.isDigit = [] ∧ rest.dropWhile Char.isDigit = rest ∧
      readFraction rest = some ([], rest) ∧ readExponent rest = some (none, rest) := by
  cases rest with
  | nil => exact ⟨rfl, rfl, rfl, rfl⟩
  | cons c rest =>
    have hc : (((c = ' ' ∨ c = '\t') ∨ c = '\n') ∨ c = '\r') ∨ c = ',' ∨ c = ']' ∨ c = '\x7d' := by
      simpa [isGap] using h c rfl
    rcases hc with (((rfl | rfl) | rfl) | rfl) | rfl | rfl | rfl <;> exact ⟨rfl, rfl, rfl, rfl⟩

theorem isDigit_of_mem {n : Nat} {c : Char} (h : c ∈ Nat.toDigits 10 n) : c.isDigit = true :=
  Nat.isDigit_of_mem_toDigits (by decide) (by decide) h

theorem exists_digit (n : Nat) : ∃ d ds, Nat.toDigits 10 n = d :: ds ∧ d.isDigit = true := by
  obtain ⟨d, ds, hds⟩ := List.exists_cons_of_ne_nil (Nat.toDigits_ne_nil (n := n) (b := 10))
  exact ⟨d, ds, hds, isDigit_of_mem (hds ▸ List.mem_cons_self)⟩

theorem head?_toDigits {n : Nat} (h : 0 < n) : (Nat.toDigits 10 n).head? ≠ some '0' := by
  induction n using Nat.strongRecOn with
  | ind n ih =>
    rw [Nat.toDigits_eq_if (by decide)]
    split
    · rename_i hlt
      simpa using Nat.pos_iff_ne_zero.1 h
    · rename_i hge
      have hfirst := ih (n / 10) (by omega) (by omega)
      obtain ⟨d, ds, hds, -⟩ := exists_digit (n / 10)
      rw [hds] at hfirst ⊢
      exact hfirst

theorem digitsValue_toDigits (n : Nat) : Text.digitsValue (Nat.toDigits 10 n) = n := by
  have hfold := Nat.ofDigitChars_ten_toDigits (n := n)
  rw [Nat.ofDigitChars_eq_foldl] at hfold
  simpa [Text.digitsValue, Nat.mul_comm] using hfold

theorem digits_append {n : Nat} {rest : List Char} (h : Stops rest) :
    (Nat.toDigits 10 n ++ rest).takeWhile Char.isDigit = Nat.toDigits 10 n ∧
      (Nat.toDigits 10 n ++ rest).dropWhile Char.isDigit = rest := by
  obtain ⟨htake, hdrop, -, -⟩ := h.number
  constructor
  · rw [List.takeWhile_append_of_pos fun _ => isDigit_of_mem, htake, List.append_nil]
  · rw [List.dropWhile_append_of_pos fun _ => isDigit_of_mem, hdrop]

theorem no_leading_zero (n : Nat) :
    ((Nat.toDigits 10 n).isEmpty ||
      decide ((Nat.toDigits 10 n).length > 1) && (Nat.toDigits 10 n).head? == some '0') = false := by
  rcases Nat.eq_zero_or_pos n with rfl | hpos
  · decide
  · have hfirst := head?_toDigits hpos
    have hsome : Nat.toDigits 10 n ≠ [] := Nat.toDigits_ne_nil
    simp [hfirst, hsome]

theorem toList_repr (n : Nat) : (Nat.repr n).toList = Nat.toDigits 10 n := by
  rw [Nat.repr_eq_ofList_toDigits, String.toList_ofList]

/-- A number of 64 bits is read back. -/
theorem readNumber_intText {n : Int} {rest : List Char} (h : isWord n = true)
    (hrest : Stops rest) : readNumber ((intText n).toList ++ rest) = some (.num n, rest) := by
  obtain ⟨-, -, hfraction, hexponent⟩ := hrest.number
  obtain ⟨hlow, hhigh⟩ : -(Text.maxNegated64 : Int) ≤ n ∧ n ≤ Text.maxNat64 := by
    simpa [isWord] using h
  cases n with
  | ofNat n =>
    have hle : n ≤ Text.maxNat64 := by simpa using hhigh
    obtain ⟨htake, hdrop⟩ := digits_append (n := n) hrest
    obtain ⟨d, ds, hds, hdigit⟩ := exists_digit n
    rw [intText, toList_repr, readNumber]
    · simp [htake, hdrop, hfraction, hexponent, no_leading_zero, digitsValue_toDigits, hle]
    · intro r heq
      rw [hds] at heq
      cases heq
      exact absurd hdigit (by decide)
  | negSucc n =>
    have hle : n + 1 ≤ Text.maxNegated64 := by omega
    obtain ⟨htake, hdrop⟩ := digits_append (n := n + 1) hrest
    have hminus : (intText (.negSucc n)).toList ++ rest =
        '-' :: (Nat.toDigits 10 (n + 1) ++ rest) := by
      rw [intText, String.toList_append, toList_repr]
      rfl
    rw [hminus, readNumber]
    simp [htake, hdrop, hfraction, hexponent, no_leading_zero, digitsValue_toDigits, hle]
    omega

/-! ### Blanks and first characters -/

theorem skipGaps_append {g : List Char} (h : Gap g) (cs : List Char) :
    skipGaps (g ++ cs) = skipGaps cs := List.dropWhile_append_of_pos h

theorem skipGaps_cons {c : Char} (h : isGap c = false) (cs : List Char) :
    skipGaps (c :: cs) = c :: cs := List.dropWhile_cons_of_neg (by simp [h])

theorem skipGaps_token {g : List Char} {c : Char} (hg : Gap g) (hc : isGap c = false)
    (cs : List Char) : skipGaps (g ++ c :: cs) = c :: cs := by
  rw [skipGaps_append hg, skipGaps_cons hc]

theorem readValue_append {g : List Char} (h : Gap g) (fuel : Nat) (cs : List Char) :
    readValue fuel (g ++ cs) = readValue fuel cs := by
  cases fuel with
  | zero => rfl
  | succ fuel => rw [readValue, readValue, skipGaps_append h]

theorem readItems_append {g : List Char} (h : Gap g) (fuel : Nat) (cs : List Char) :
    readItems fuel (g ++ cs) = readItems fuel cs := by
  cases fuel with
  | zero => rfl
  | succ fuel => rw [readItems, readItems, readValue_append h]

theorem readFields_append {g : List Char} (h : Gap g) (fuel : Nat) (cs : List Char) :
    readFields fuel (g ++ cs) = readFields fuel cs := by
  cases fuel with
  | zero => rfl
  | succ fuel => rw [readFields, readFields, skipGaps_append h]

theorem Stops.append {g rest : List Char} (hg : Gap g) (h : Stops rest) : Stops (g ++ rest) := by
  cases g with
  | nil => exact h
  | cons c g => exact Stops.cons (.inl (hg c List.mem_cons_self)) _

theorem toList_quoted (s : String) (rest : List Char) :
    (quoted s).toList ++ rest = '"' :: (s.toList.flatMap escape ++ '"' :: rest) := by
  simp [quoted]

theorem exists_intText (n : Int) : ∃ c cs, (intText n).toList = c :: cs ∧
    (c = '-' ∨ c.isDigit = true) := by
  cases n with
  | ofNat n =>
    obtain ⟨d, ds, hds, hdigit⟩ := exists_digit n
    exact ⟨d, ds, by rw [intText, toList_repr, hds], .inr hdigit⟩
  | negSucc n => exact ⟨'-', (Nat.repr (n + 1)).toList, by simp [intText], .inl rfl⟩

theorem isGap_of_number {c : Char} (h : c = '-' ∨ c.isDigit = true) : isGap c = false := by
  rw [← Bool.not_eq_true]
  intro hgap
  obtain ((rfl | rfl) | rfl) | rfl : ((c = ' ' ∨ c = '\t') ∨ c = '\n') ∨ c = '\r' := by
    simpa [isGap] using hgap
  all_goals exact absurd h (by decide)

theorem readValue_number {c : Char} (h : c = '-' ∨ c.isDigit = true) (fuel : Nat)
    (cs : List Char) : readValue (fuel + 1) (c :: cs) = readNumber (c :: cs) := by
  rw [readValue, skipGaps_cons (isGap_of_number h)]
  split
  case h_7 => rfl
  -- any other first character is neither a digit nor a minus
  all_goals
    rename_i heq
    cases heq
    exact absurd h (by decide)

/-- A spelling starts with a character that is neither blank nor a closing bracket. -/
theorem Spells.exists_start {cs : List Char} {v : Json} (h : Spells cs v) :
    ∃ c ds, cs = c :: ds ∧ isGap c = false ∧ c ≠ ']' := by
  cases h with
  | num _ =>
    obtain ⟨c, ds, heq, hc⟩ := exists_intText _
    refine ⟨c, ds, heq, isGap_of_number hc, ?_⟩
    rintro rfl
    exact absurd hc (by decide)
  | str s => exact ⟨'"', s.toList.flatMap escape ++ ['"'], by simp [quoted], rfl, by decide⟩
  | _ => exact ⟨_, _, rfl, rfl, by decide⟩

theorem SpellsItems.exists_start {cs : List Char} {vs : List Json} (h : SpellsItems cs vs) :
    ∃ g c ds, cs = g ++ c :: ds ∧ Gap g ∧ isGap c = false ∧ c ≠ ']' := by
  cases h with
  | last hg hv _ | cons hg hv _ _ =>
    obtain ⟨c, ds, rfl, hc⟩ := hv.exists_start
    exact ⟨_, c, _, rfl, hg, hc⟩

theorem SpellsFields.exists_start {cs : List Char} {fs : List (String × Json)}
    (h : SpellsFields cs fs) : ∃ g ds, cs = g ++ '"' :: ds ∧ Gap g := by
  cases h with
  | last hg _ _ _ _ | cons hg _ _ _ _ _ => exact ⟨_, _, by rw [toList_quoted], hg⟩

/-! ### Values -/

/-- With so many calls left, what is spelled in fewer characters is read. -/
structure Reads (fuel : Nat) : Prop where
  value : ∀ {cs : List Char} {v : Json} (rest : List Char), Spells cs v → Stops rest →
    cs.length < fuel → readValue fuel (cs ++ rest) = some (v, rest)
  items : ∀ {cs : List Char} {vs : List Json} (rest : List Char), SpellsItems cs vs →
    cs.length < fuel → readItems fuel (cs ++ rest) = some (vs, rest)
  fields : ∀ {cs : List Char} {fs : List (String × Json)} (rest : List Char), SpellsFields cs fs →
    cs.length < fuel →
    readFields fuel (cs ++ rest) = some (fs.map fun f => (some f.1, f.2), rest)

theorem ofFields_map (fs : List (String × Json)) :
    ofFields (fs.map fun f => (some f.1, f.2)) = .obj fs := by
  have hread : ((fs.map fun f => ((some f.1 : Option String), f.2)).mapM
      fun p => p.1.map (·, p.2)) = some fs := by
    rw [List.mapM_map]
    induction fs with
    | nil => rfl
    | cons f fs ih => simp [List.mapM_cons, ih]
  unfold ofFields
  split
  · rename_i gs hgs
    exact congrArg obj (Option.some.inj (hgs.symm.trans hread))
  · rename_i hnone
    cases hnone.symm.trans hread

section

variable {fuel : Nat} {cs : List Char} (rest : List Char)

theorem Reads.value_succ (ih : Reads fuel) {v : Json} (h : Spells cs v) (hrest : Stops rest)
    (hfuel : cs.length < fuel + 1) : readValue (fuel + 1) (cs ++ rest) = some (v, rest) := by
  cases h with
  | null | bool_true | bool_false => rfl
  | num hword =>
    obtain ⟨c, ds, heq, hc⟩ := exists_intText _
    rw [heq, List.cons_append, readValue_number hc, ← List.cons_append, ← heq]
    exact readNumber_intText hword hrest
  | str s =>
    rw [toList_quoted, readValue, skipGaps_cons rfl]
    simp only [readString_escaped]
    rfl
  | noItems hg =>
    rw [List.cons_append, List.append_assoc, readValue, skipGaps_cons rfl]
    simp only [List.singleton_append, skipGaps_token (c := ']') hg rfl]
  | arr hitems =>
    have hread := ih.items rest hitems (Nat.lt_of_succ_lt_succ hfuel)
    obtain ⟨g, c, ds, rfl, hg, hgap, hc⟩ := hitems.exists_start
    rw [List.append_assoc, readItems_append hg, List.cons_append] at hread
    rw [List.cons_append, List.append_assoc, readValue, skipGaps_cons rfl]
    simp only [List.cons_append, skipGaps_token hg hgap]
    split
    -- an array that ends at once has no items
    · rename_i heq
      cases heq
      exact absurd rfl hc
    · rw [hread]
      rfl
  | noFields hg =>
    rw [List.cons_append, List.append_assoc, readValue, skipGaps_cons rfl]
    simp only [List.singleton_append, skipGaps_token (c := '\x7d') hg rfl]
  | obj hfields =>
    have hread := ih.fields rest hfields (Nat.lt_of_succ_lt_succ hfuel)
    obtain ⟨g, ds, rfl, hg⟩ := hfields.exists_start
    rw [List.append_assoc, readFields_append hg, List.cons_append] at hread
    rw [List.cons_append, List.append_assoc, readValue, skipGaps_cons rfl]
    simp only [List.cons_append, skipGaps_token (c := '"') hg rfl]
    split
    · rename_i heq
      cases heq
    · rw [hread]
      simp [ofFields_map]

theorem Reads.items_succ (ih : Reads fuel) {vs : List Json} (h : SpellsItems cs vs)
    (hfuel : cs.length < fuel + 1) : readItems (fuel + 1) (cs ++ rest) = some (vs, rest) := by
  cases h with
  | @last g cs g' v hg hv hg' =>
    have hlen : cs.length < fuel := by
      simp at hfuel
      omega
    have hread := ih.value (g' ++ ']' :: rest) hv (.append hg' (.cons (by simp) rest)) hlen
    rw [List.append_assoc, readItems_append hg, readItems]
    simp only [List.append_assoc, List.singleton_append, hread]
    simp [skipGaps_token (c := ']') hg' rfl]
  | @cons g cs g' ds v vs hg hv hg' hds =>
    have hlen : cs.length < fuel ∧ ds.length < fuel := by
      simp at hfuel
      omega
    have hread := ih.value (g' ++ ',' :: (ds ++ rest)) hv (.append hg' (.cons (by simp) _)) hlen.1
    have hrest := ih.items rest hds hlen.2
    rw [List.append_assoc, readItems_append hg, readItems]
    simp only [List.append_assoc, List.cons_append, hread]
    simp [skipGaps_token (c := ',') hg' rfl, hrest]

theorem Reads.fields_succ (ih : Reads fuel) {fs : List (String × Json)} (h : SpellsFields cs fs)
    (hfuel : cs.length < fuel + 1) :
    readFields (fuel + 1) (cs ++ rest) = some (fs.map fun f => (some f.1, f.2), rest) := by
  cases h with
  | @last g g₁ g₂ cs g' k v hg hg₁ hg₂ hv hg' =>
    have hlen : cs.length < fuel := by
      simp at hfuel
      omega
    have hread := ih.value (g' ++ '\x7d' :: rest) hv (.append hg' (.cons (by simp) rest)) hlen
    rw [List.append_assoc, readFields_append hg, List.append_assoc, toList_quoted, readFields,
      skipGaps_cons rfl]
    simp only [List.append_assoc, List.cons_append]
    simp [readString_escaped, skipGaps_token (c := ':') hg₁ rfl, readValue_append hg₂, hread,
      skipGaps_token (c := '\x7d') hg' rfl]
  | @cons g g₁ g₂ cs g' ds k v fs hg hg₁ hg₂ hv hg' hds =>
    have hlen : cs.length < fuel ∧ ds.length < fuel := by
      simp at hfuel
      omega
    have hread := ih.value (g' ++ ',' :: (ds ++ rest)) hv (.append hg' (.cons (by simp) _)) hlen.1
    have hrest := ih.fields rest hds hlen.2
    rw [List.append_assoc, readFields_append hg, List.append_assoc, toList_quoted, readFields,
      skipGaps_cons rfl]
    simp only [List.append_assoc, List.cons_append]
    simp [readString_escaped, skipGaps_token (c := ':') hg₁ rfl, readValue_append hg₂, hread,
      skipGaps_token (c := ',') hg' rfl, hrest]

end

/-- Whatever the calls left, they read what they are enough for. -/
theorem reads : ∀ fuel, Reads fuel
  | 0 => ⟨fun _ _ _ h => absurd h (Nat.not_lt_zero _), fun _ _ h => absurd h (Nat.not_lt_zero _),
    fun _ _ h => absurd h (Nat.not_lt_zero _)⟩
  | fuel + 1 => ⟨(reads fuel).value_succ, (reads fuel).items_succ, (reads fuel).fields_succ⟩

theorem parse?_of_spells {s : String} {v : Json} (h : Spells s.toList v) : parse? s = some v := by
  have hfuel : s.toList.length < 2 * s.toList.length + 2 := by omega
  have hread := (reads _).value [] h nofun hfuel
  rw [List.append_nil] at hread
  rw [parse?, hread]
  rfl

/-- **The document that spells a value is read as the value**, if it fits. -/
theorem document?_of_spells {s : String} {v : Json} (h : Spells s.toList v)
    (hfits : fits maxNesting v = true) : document? s = some v := by
  rw [document?, parse?_of_spells h, Option.map_some, within_eq_self hfits]

end CallChain.Json
