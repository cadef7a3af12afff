/-
# What names left out take along

A name to leave out becomes the start of keys, with nothing at its end that
would end the name. The fields and methods of a type are therefore left out
exactly if the name of the type goes on from a name left out: it is that name, or
that of a type nested in it, or that of a type in a package so called, or it
begins with the same letters and has more of them.

Key definition: `JavaName.GoesOn`.
Key theorems: `JavaName.goesOn_iff`, `Settings.excludes_declared_iff`.
-/
import CallChain.Proofs.Completion.Settings
import CallChain.Proofs.JavaType.Identifier
import CallChain.Proofs.Member.Key

namespace CallChain

namespace JavaName

/-- How a name goes on from another: not at all, with what is nested in a type of
that name, with what is in a package of that name, or with more letters. -/
inductive GoesOn (name : String) : String → Prop
  | same : GoesOn name name
  | nested (rest : String) : GoesOn name (name ++ "$" ++ rest)
  | inside (rest : String) : GoesOn name (name ++ "." ++ rest)
  | longer (c : Char) (rest : String) (part : isPart c = true) (other : c ≠ '$') :
    GoesOn name (name ++ String.singleton c ++ rest)

theorem isPart_or_dot {name : String} (h : isFullName name = true) {c : Char}
    (hc : c ∈ name.toList) : c = '.' ∨ isPart c = true := by
  by_cases hdot : c = '.'
  · exact .inl hdot
  · refine .inr ?_
    have havoids : Text.Avoids (fun d => d != '.' && !isPart d) name := by
      refine avoids_of_isFullName h (fun d hd => ?_) (by decide)
      rw [Bool.and_eq_true, Bool.not_eq_true'] at hd
      exact hd.2
    have hpart := havoids c hc
    simpa [hdot] using hpart

/-- A full name goes on from another exactly if it starts with it. -/
theorem goesOn_iff {name type : String} (h : isFullName type = true) :
    GoesOn name type ↔ name.toList <+: type.toList := by
  constructor
  · intro hgoes
    cases hgoes with
    | same => exact List.prefix_rfl
    | nested rest => simp [String.toList_append]
    | inside rest => simp [String.toList_append]
    | longer c rest part other => simp [String.toList_append]
  · rintro ⟨rest, hrest⟩
    cases rest with
    | nil =>
      rw [List.append_nil, String.toList_inj] at hrest
      exact hrest ▸ .same
    | cons c cs =>
      have htype : name ++ String.singleton c ++ String.ofList cs = type := by
        rw [← String.toList_inj, ← hrest]
        simp [String.toList_append]
      have hmem : c ∈ type.toList := by
        rw [← hrest]
        exact List.mem_append_right _ List.mem_cons_self
      rw [← htype]
      rcases isPart_or_dot h hmem with rfl | hpart
      · exact .inside _
      · by_cases hnested : c = '$'
        · rw [hnested]
          exact .nested _
        · exact .longer c _ hpart hnested

end JavaName

/-- **Names left out take along what goes on from them.** If the names to leave
out are full names, a field or method of a type with a full name is left out
exactly if the name of the type goes on from one of them. -/
theorem Settings.excludes_declared_iff (s : Settings) (L : Limits) (m : Member) (type : String)
    (limits : s.limits = .ok L)
    (names : ∀ name, s.Ignores name → JavaName.isFullName name = true)
    (kind : m.kind = .field ∨ m.kind = .method) (declared : m.owner = some type)
    (full : JavaName.isFullName type = true) :
    L.excludes m.key = true ↔ ∃ name, s.Ignores name ∧ JavaName.GoesOn name type := by
  have hkind : m.kind ≠ .localVar := by
    intro h
    rw [h] at kind
    rcases kind with h | h <;> cases h
  rw [Settings.excludes_iff limits, Member.toList_key_of_declared hkind,
    Member.ownerText_of_some declared]
  refine exists_congr fun name => and_congr_right fun hignores => ?_
  rw [JavaName.goesOn_iff full, JavaName.signatureStart_prefix_iff
    (JavaName.avoids_separators (names name hignores)) (JavaName.avoids_separators full)
    hignores.trim_eq]

namespace Builder

def reverse : Member := .method "java.lang.StringBuilder" "reverse" [] (.named "T")

def entry : Member := .field "java.util.Map$Entry" "key" (.named "T")

theorem ignores_default_iff {name : String} :
    ({} : Settings).Ignores name ↔ name = "java.lang.Object" ∨ name = "java.lang.String" := by
  have hnames : ({} : Settings).ignoredNames = ["java.lang.Object", "java.lang.String"] := by
    decide +kernel
  rw [← Settings.mem_ignoredNames_iff, hnames]
  simp

theorem isFullName_default (name : String) (h : ({} : Settings).Ignores name) :
    JavaName.isFullName name = true := by
  rcases ignores_default_iff.1 h with rfl | rfl <;> decide +kernel

theorem isFullName_builder : JavaName.isFullName "java.lang.StringBuilder" = true := by
  decide +kernel

/-- With the strings the builders of strings are left out, and what is nested in
another type is not. -/
theorem reverse_left_out :
    ∃ L, ({} : Settings).limits = .ok L ∧
      (∀ name, ({} : Settings).Ignores name → JavaName.isFullName name = true) ∧
      L.excludes reverse.key = true ∧ L.excludes entry.key = false := by
  obtain ⟨L, hlimits⟩ : ∃ L, ({} : Settings).limits = .ok L := ⟨_, rfl⟩
  have hreverse := Settings.excludes_declared_iff {} L reverse "java.lang.StringBuilder" hlimits
    isFullName_default (.inr rfl) rfl isFullName_builder
  have hentry := Settings.excludes_declared_iff {} L entry "java.util.Map$Entry" hlimits
    isFullName_default (.inl rfl) rfl (by decide +kernel)
  refine ⟨L, hlimits, isFullName_default, hreverse.2 ?_, Bool.eq_false_iff.2 fun h => ?_⟩
  · have hgoes : JavaName.GoesOn "java.lang.String" "java.lang.StringBuilder" :=
      .longer 'B' "uilder" (by decide) (by decide)
    exact ⟨"java.lang.String", ignores_default_iff.2 (.inr rfl), hgoes⟩
  · obtain ⟨name, hname, hgoes⟩ := hentry.1 h
    rw [JavaName.goesOn_iff (by decide +kernel)] at hgoes
    rcases ignores_default_iff.1 hname with rfl | rfl
    · exact absurd hgoes (by decide +kernel)
    · exact absurd hgoes (by decide +kernel)

/-- The builder is none of the types left out, nor nested in one. -/
theorem letters_enough :
    ¬ ∀ (s : Settings) (L : Limits) (m : Member) (type : String), s.limits = .ok L →
      (∀ name, s.Ignores name → JavaName.isFullName name = true) →
      (m.kind = .field ∨ m.kind = .method) → m.owner = some type →
      JavaName.isFullName type = true → L.excludes m.key = true →
      ∃ name, s.Ignores name ∧ (type = name ∨ ∃ rest, type = name ++ "$" ++ rest) := by
  intro h
  obtain ⟨name, hname, hnested⟩ := h {} _ reverse "java.lang.StringBuilder" rfl isFullName_default
    (.inr rfl) rfl isFullName_builder (by decide +kernel)
  have hstart : ∀ rest, "java.lang.StringBuilder" = name ++ "$" ++ rest →
      (name ++ "$").toList <+: "java.lang.StringBuilder".toList := by
    intro rest hrest
    rw [hrest, String.toList_append (t := rest)]
    exact List.prefix_append _ _
  rcases ignores_default_iff.1 hname with rfl | rfl
  all_goals
    rcases hnested with hsame | ⟨rest, hrest⟩
    · exact absurd hsame (by decide)
    · exact absurd (hstart rest hrest) (by decide +kernel)

end Builder

end CallChain
