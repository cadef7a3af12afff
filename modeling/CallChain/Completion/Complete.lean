/-
# Completion

From a request to the proposals for it: the links that a chain may start
with, the chains that a search finds from them, ranked. Without a type to
look for, a place that is known, or a link to start with, there is nothing to
propose.

Key definitions: `Completion`, `completeBy`, `complete`.
-/
import CallChain.Completion.Request
import CallChain.Proposal
import CallChain.Search.Hazards
import CallChain.Settings.Basic

namespace CallChain

/-- The answer to a request. -/
structure Completion where
  status : Status := .exhausted
  proposals : List Proposal := []

/-- What a user is told about a search that did not end well. -/
def Status.notice? : Status → Option String
  | .timedOut => some "Timeout during call chain computation."
  | .aborted => some "Call chain computation failed."
  | _ => none

/-- The name of a status. -/
def Status.tag : Status → String
  | .exhausted => "Exhausted"
  | .limitReached => "LimitReached"
  | .timedOut => "TimedOut"
  | .cancelled => "Cancelled"
  | .aborted => "Aborted"

/-- The completion from given facts and limits. -/
def completeWithin (F : Facts) (L : Limits) (I : Interruptions) (r : Request) : Completion :=
  match r.expected with
  | none => {}
  | some type =>
    let outcome := F.supervisedSearch L I (r.starts F) [type]
    { status := outcome.status, proposals := Proposal.rank outcome.chains }

/-- The completion of a request by what is known inside each type, unless the
settings are refused. -/
def completeBy (known : String → Option Facts) (I : Interruptions) (settings : Settings)
    (r : Request) : Except SettingsError Completion := do
  let limits ← settings.limits
  match known r.invokingType with
  | none => .ok {}
  | some F => .ok (completeWithin F limits I r)

/-- The completion of a request, from a table of types that may have hazards,
unless the settings are refused. -/
def complete (t : TypeTable) (h : Hazards) (settings : Settings) (r : Request) :
    Except SettingsError Completion :=
  completeBy (fun name => (t.site? name).map (h.facts t)) (h.supervisedInterruptions t .brief)
    settings r

namespace Completion

/-- A completion in JSON. -/
def toJson (c : Completion) : Json :=
  .obj [
    ("proposals", .arr (c.proposals.map Proposal.toJson)),
    ("error", Json.ofOption .str c.status.notice?),
    ("status", .str c.status.tag)]

end Completion

end CallChain
