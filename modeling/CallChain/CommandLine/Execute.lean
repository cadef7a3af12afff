/-
# Commands

What a command prints and how it exits, given the contents of the files that
it names. Settings come first, then the model, then the context; the first
that fails is reported.

Key definitions: `Files`, `Exit`, `SearchArgs.resolve`, `execute`, `run`.
-/
import CallChain.CommandLine.Report
import CallChain.CommandLine.Usage
import CallChain.Completion.Complete
import CallChain.Completion.Json
import CallChain.Json.Reader
import CallChain.Settings.Json
import CallChain.TypeTable.Json

namespace CallChain.CommandLine

/-- The contents of files, by path. -/
abbrev Files := String → Option String

/-- Why a command fails. -/
inductive Failure where
  | noFile
  | badDocument
  | settings (e : SettingsError)
  | lookup (e : LookupError)
  deriving DecidableEq

/-- The wording of a failure. -/
def Failure.message : Failure → String
  | .noFile => "I/O error: No such file or directory (os error 2)"
  | .badDocument => "JSON serialization/deserialization error: not a document of this kind"
  | .settings e => e.message
  | .lookup e => e.message

/-- How a program ends: its exit code and what it printed. -/
structure Exit where
  code : Nat := 0
  stdout : String := ""
  stderr : String := ""

/-- What `decode` makes of the document in a file. -/
def load {α : Type} (decode : Json → Option α) (files : Files) (path : String) :
    Except Failure α :=
  match files path with
  | none => .error .noFile
  | some content =>
    match (Json.document? content).bind decode with
    | none => .error .badDocument
    | some a => .ok a

/-- Settings with those of the command line in place of the others. -/
def SearchArgs.override (a : SearchArgs) (s : Settings) : Settings where
  maxChains := a.maxChains.getD s.maxChains
  minLength := a.minLength.getD s.minLength
  maxLength := a.maxLength.getD s.maxLength
  ignoredTypes := a.ignoredTypes.getD s.ignoredTypes
  timeoutSecs := a.timeout.getD s.timeoutSecs

/-- The settings of a search, if they make sense. -/
def SearchArgs.resolve (a : SearchArgs) (files : Files) : Except Failure Settings := do
  let base ← match a.settings with
    | some path => load Settings.ofJson? files path
    | none => .ok {}
  let settings := a.override base
  match settings.fault? with
  | some e => .error (.settings e)
  | none => .ok settings

/-- What a search prints. -/
def SearchArgs.execute (a : SearchArgs) (files : Files) : Except Failure Exit := do
  let settings ← a.resolve files
  let model ← load Model.ofJson? files a.model
  let request ← load Request.ofJson? files a.context
  match complete model.table {} settings request with
  | .error e => .error (.settings e)
  | .ok c =>
    let text :=
      if a.json then c.toJson.pretty
      else if c.proposals.isEmpty then "No chains found."
      else (proposalGrid c.proposals).render
    .ok { stdout := text ++ "\n", stderr := (c.status.notice?.map (· ++ "\n")).getD "" }

/-- What a listing of members prints. -/
def MembersArgs.execute (a : MembersArgs) (files : Files) : Except Failure Exit := do
  let model ← load Model.ofJson? files a.model
  let t := model.table
  let site := t.siteOf (a.site.getD a.type)
  match t.visibleMembers (if a.ofType then .type else .value) site (.named a.type) with
  | .error e => .error (.lookup e)
  | .ok [] => .ok { stdout := "No visible members.\n" }
  | .ok ms => .ok { stdout := (memberGrid ms).render ++ "\n" }

/-- What a command prints, and how it exits. -/
def execute (files : Files) (c : Command) : Exit :=
  let result := match c with
    | .search a => a.execute files
    | .members a => a.execute files
  match result with
  | .ok e => e
  | .error e => { code := 1, stderr := "Error: " ++ e.message ++ "\n" }

/-- The name and version that the program gives itself. -/
def versionLine : String := "chainscope 0.1.0\n"

/-- How the program ends for words that are no command. -/
def UsageError.exit : UsageError → Exit
  | .help => {}
  | .version => { stdout := versionLine }
  | _ => { code := 2 }

/-- How the program ends for the words of its command line. -/
def run (files : Files) (words : List String) : Exit :=
  match Command.parse words with
  | .error e => e.exit
  | .ok c => execute files c

/-- The files that a command reads. -/
def Command.paths : Command → List String
  | .search a => a.settings.toList ++ [a.model, a.context]
  | .members a => [a.model]

end CallChain.CommandLine
