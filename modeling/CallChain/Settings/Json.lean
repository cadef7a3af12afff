/-
# Settings in JSON

Settings are a record from which any field may be missing.

Key definitions: `Settings.toJson`, `Settings.ofJson?`.
-/
import CallChain.Json.Fields
import CallChain.Settings.Basic

namespace CallChain.Settings

/-- Settings in JSON. -/
def toJson (s : Settings) : Json :=
  .obj [
    ("max_chains", .num s.maxChains),
    ("min_chain_length", .num s.minLength),
    ("max_chain_length", .num s.maxLength),
    ("ignored_types", .str s.ignoredTypes),
    ("timeout_secs", .num s.timeoutSecs)]

/-- The settings that a value stands for. -/
def ofJson? (v : Json) : Option Settings := do
  let standard : Settings := {}
  let [maxChains, minLength, maxLength, ignoredTypes, timeoutSecs] ←
    v.slots ["max_chains", "min_chain_length", "max_chain_length", "ignored_types", "timeout_secs"]
    | none
  some {
    maxChains := ← Json.optional standard.maxChains Json.nat? maxChains
    minLength := ← Json.optional standard.minLength Json.nat? minLength
    maxLength := ← Json.optional standard.maxLength Json.nat? maxLength
    ignoredTypes := ← Json.optional standard.ignoredTypes Json.str? ignoredTypes
    timeoutSecs := ← Json.optional standard.timeoutSecs Json.nat? timeoutSecs }

end CallChain.Settings
