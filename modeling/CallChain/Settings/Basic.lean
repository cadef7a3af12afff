/-
# Settings

What a user may set: the limits of the search, with the types to leave out as
a list of names with `|` between them. Settings that make no sense are
refused, the first fault in a fixed order.

Key definitions: `Settings`, `Settings.Ignores`, `Settings.ignoredSignatures`,
`Settings.fault?`, `Settings.limits`.
-/
import CallChain.JavaName
import CallChain.Limits.Basic

namespace CallChain

/-- The settings of a user. -/
structure Settings where
  maxChains : Nat := 20
  minLength : Nat := 2
  maxLength : Nat := 4
  ignoredTypes : String := "java.lang.Object|java.lang.String"
  timeoutSecs : Nat := 3
  deriving DecidableEq

/-- Why settings are refused. -/
inductive SettingsError where
  | noChains
  | noMinLength
  | lengthsCrossed (max min : Nat)
  | noTimeout
  deriving DecidableEq

/-- The wording of a refusal. -/
def SettingsError.message : SettingsError → String
  | .noChains => "Invalid configuration: max_chains must be at least 1"
  | .noMinLength => "Invalid configuration: min_chain_length must be at least 1"
  | .lengthsCrossed max min =>
    "Invalid configuration: max_chain_length (" ++ Nat.repr max ++
      ") is smaller than min_chain_length (" ++ Nat.repr min ++ ")"
  | .noTimeout => "Invalid configuration: timeout_secs must be at least 1"

namespace Settings

/-- The names of the types to leave out, blank ones dropped. -/
def ignoredNames (s : Settings) : List String :=
  ((Text.split '|' s.ignoredTypes).map Text.trim).filter (· != "")

/-- The settings leave out the type of a name: the name stands between bars,
with or without blanks around it. -/
def Ignores (s : Settings) (name : String) : Prop :=
  name ≠ "" ∧ ∃ piece ∈ Text.split '|' s.ignoredTypes, Text.trim piece = name

theorem mem_ignoredNames_iff {s : Settings} {name : String} :
    name ∈ s.ignoredNames ↔ s.Ignores name := by
  simp [ignoredNames, Ignores, and_comm]

/-- What the signatures of the types to leave out start with. -/
def ignoredSignatures (s : Settings) : List String :=
  s.ignoredNames.map JavaName.signatureStart

/-- The first fault of the settings, if they have one. -/
def fault? (s : Settings) : Option SettingsError :=
  if s.maxChains = 0 then some .noChains
  else if s.minLength = 0 then some .noMinLength
  else if s.maxLength < s.minLength then some (.lengthsCrossed s.maxLength s.minLength)
  else if s.timeoutSecs = 0 then some .noTimeout
  else none

/-- The limits that the settings ask for. -/
def limits (s : Settings) : Except SettingsError Limits :=
  match s.fault? with
  | some e => .error e
  | none =>
    .ok {
      maxChains := s.maxChains
      minLength := s.minLength
      maxLength := s.maxLength
      excluded := s.ignoredSignatures
      timeout := { secs := s.timeoutSecs, nanos := 0 } }

/-- Settings are refused exactly for a count of zero or lengths that cross. -/
theorem fault?_eq_none_iff {s : Settings} :
    s.fault? = none ↔
      s.maxChains ≠ 0 ∧ s.minLength ≠ 0 ∧ s.minLength ≤ s.maxLength ∧ s.timeoutSecs ≠ 0 := by
  grind [fault?]

theorem limits_eq_ok_iff {s : Settings} {L : Limits} :
    s.limits = .ok L ↔ s.fault? = none ∧
      L = {
        maxChains := s.maxChains
        minLength := s.minLength
        maxLength := s.maxLength
        excluded := s.ignoredSignatures
        timeout := { secs := s.timeoutSecs, nanos := 0 } } := by
  unfold limits
  cases s.fault? with
  | some e => simp
  | none => simp [eq_comm]

end Settings

end CallChain
