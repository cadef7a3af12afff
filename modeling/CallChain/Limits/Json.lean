/-
# Limits in JSON

Limits are a record. A duration is stricter than other records: it has its
two fields and no other. Nanoseconds are of 32 bits, and whole seconds among
them are carried.

Key definitions: `Limits.toJson`, `Limits.ofJson?`.
-/
import CallChain.Json.Fields
import CallChain.Limits.Basic
import CallChain.Text.Digits

namespace CallChain

namespace Duration

/-- A duration in JSON. -/
def toJson (d : Duration) : Json := .obj [("secs", .num d.secs), ("nanos", .num d.nanos)]

/-- The duration of seconds and nanoseconds of any number; none if it is too
long for seconds of 64 bits. -/
def ofParts? (secs nanos : Nat) : Option Duration :=
  if h : nanos < 1000000000 then some ⟨secs, nanos, h⟩
  else if nanos ≤ Text.maxNat32 && secs + nanos / 1000000000 ≤ Text.maxNat64 then
    some ⟨secs + nanos / 1000000000, nanos % 1000000000, Nat.mod_lt _ (by decide)⟩
  else none

/-- The duration that a value stands for. -/
def ofJson? : Json → Option Duration
  | .obj fields =>
    if fields.all (fun f => f.1 == "secs" || f.1 == "nanos") then
      match (Json.obj fields).objectSlots ["secs", "nanos"] with
      | some [some (.num (.ofNat secs)), some (.num (.ofNat nanos))] => ofParts? secs nanos
      | _ => none
    else none
  | .arr [.num (.ofNat secs), .num (.ofNat nanos)] => ofParts? secs nanos
  | _ => none

end Duration

namespace Limits

/-- Limits in JSON. -/
def toJson (l : Limits) : Json :=
  .obj [
    ("max_chains", .num l.maxChains),
    ("min_depth", .num l.minLength),
    ("max_depth", .num l.maxLength),
    ("excluded_types", Json.ofStrings l.excluded),
    ("timeout", l.timeout.toJson)]

/-- The limits that a value stands for. -/
def ofJson? (v : Json) : Option Limits := do
  let [maxChains, minLength, maxLength, excluded, timeout] ←
    v.slots ["max_chains", "min_depth", "max_depth", "excluded_types", "timeout"] | none
  some {
    maxChains := ← maxChains.bind Json.nat?
    minLength := ← minLength.bind Json.nat?
    maxLength := ← maxLength.bind Json.nat?
    excluded := ← excluded.bind (Json.list? Json.str?)
    timeout := ← timeout.bind Duration.ofJson? }

end Limits

end CallChain
