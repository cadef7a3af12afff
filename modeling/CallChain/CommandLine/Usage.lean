/-
# Arguments

From the words of a command line to a command. Options have long names and
are given once; a value is the next word or stands after `=`. A word that
starts with a dash is never taken for a value. Whether an option was repeated
or its value is no good is found out when the option is closed: by the next
known option, or at the end. A word that does not belong there is refused at
once, whatever is still open.

Key definitions: `Command`, `UsageError`, `Command.parse`.
-/
import CallChain.Text.Digits
import CallChain.Text.Pieces

namespace CallChain.CommandLine

/-- Why the words are no command. Asking for help or for the version counts,
as nothing else is done then. -/
inductive UsageError where
  | help
  | version
  | nothing
  | unknownCommand
  | unknownArgument
  | valueOfFlag
  | missingValue
  | repeated
  | badNumber
  | missingOption
  deriving DecidableEq

/-- What an option takes: a path, which may not be empty, any text, a number
of 64 bits, or nothing. -/
inductive OptionKind where
  | path
  | text
  | number
  | flag
  deriving DecidableEq

/-- The arguments of a search. -/
structure SearchArgs where
  model : String
  context : String
  settings : Option String := none
  maxChains : Option Nat := none
  minLength : Option Nat := none
  maxLength : Option Nat := none
  ignoredTypes : Option String := none
  timeout : Option Nat := none
  json : Bool := false
  deriving DecidableEq

/-- The arguments of a listing of members. -/
structure MembersArgs where
  model : String
  type : String
  ofType : Bool := false
  site : Option String := none
  deriving DecidableEq

/-- What is to be done. -/
inductive Command where
  | search (args : SearchArgs)
  | members (args : MembersArgs)
  deriving DecidableEq

/-- The number that a text spells: decimal digits, after a plus or not, for
at most 64 bits. -/
def number? (s : String) : Option Nat :=
  let digits := match s.toList with
    | '+' :: ds => ds
    | ds => ds
  if digits.isEmpty || !digits.all Char.isDigit then none
  else
    let n := Text.digitsValue digits
    if n ≤ Text.maxNat64 then some n else none

/-- The options of a search. -/
def searchOptions : List (String × OptionKind) :=
  [("model", .path), ("context", .path), ("settings", .path), ("max-chains", .number),
   ("min-length", .number), ("max-length", .number), ("ignored-types", .text),
   ("timeout", .number), ("json", .flag)]

/-- The options of a listing of members. -/
def membersOptions : List (String × OptionKind) :=
  [("model", .path), ("type", .text), ("static", .flag), ("from", .text)]

/-- The options read so far: those that are closed, each with its value, and
the one that still is open. -/
structure Reading where
  given : List (String × String) := []
  opened : Option (String × OptionKind × Option String) := none

namespace Reading

/-- The reading with an option and its value; empty for a flag. -/
def add (r : Reading) (name : String) (kind : OptionKind) (value : String) :
    Except UsageError Reading :=
  if (r.given.lookup name).isSome then .error .repeated
  else if kind = .path ∧ value = "" then .error .missingValue
  else if kind = .number ∧ number? value = none then .error .badNumber
  else .ok { r with given := (name, value) :: r.given }

/-- The reading with no option open. -/
def close (r : Reading) : Except UsageError Reading :=
  match r.opened with
  | none => .ok r
  | some (_, _, none) => .error .missingValue
  | some (name, kind, some value) => { r with opened := none }.add name kind value

end Reading

/-- A word, as it looks. -/
inductive Word where
  | endOfOptions
  | long (name : String) (value : Option String)
  | short (letter : Char)
  | plain (s : String)
  deriving DecidableEq

/-- What a word looks like. A single dash is a plain word. -/
def Word.ofString (s : String) : Word :=
  match s.toList with
  | ['-', '-'] => .endOfOptions
  | '-' :: '-' :: cs =>
    let name := cs.takeWhile (· != '=')
    match cs.dropWhile (· != '=') with
    | [] => .long (String.ofList name) none
    | _ :: value => .long (String.ofList name) (some (String.ofList value))
  | '-' :: c :: _ => .short c
  | _ => .plain s

/-- The options that the words after a command spell. -/
def readOptions (known : List (String × OptionKind)) : Reading → List String →
    Except UsageError Reading
  | r, [] => r.close
  | r, w :: ws =>
    match Word.ofString w with
    | .endOfOptions => if ws.isEmpty then r.close else .error .unknownArgument
    | .long name value =>
      match if name = "help" then some .flag else known.lookup name with
      | none => .error .unknownArgument
      | some .flag =>
        match value with
        | some _ => .error .valueOfFlag
        | none => do
          let r ← r.close
          if name = "help" then .error .help
          else readOptions known (← r.add name .flag "") ws
      | some kind => do
        let r ← r.close
        match value with
        | some value => readOptions known (← r.add name kind value) ws
        | none => readOptions known { r with opened := some (name, kind, none) } ws
    | .short letter =>
      if letter = 'h' then do
        let _ ← r.close
        .error .help
      else .error .unknownArgument
    | .plain s =>
      match r.opened with
      | some (name, kind, none) =>
        readOptions known { r with opened := some (name, kind, some s) } ws
      | _ => .error .unknownArgument

/-- The value of an option that must be given. -/
def Reading.required (r : Reading) (name : String) : Except UsageError String :=
  match r.given.lookup name with
  | some value => .ok value
  | none => .error .missingOption

/-- The search that words spell. -/
def SearchArgs.parse (words : List String) : Except UsageError SearchArgs := do
  let r ← readOptions searchOptions {} words
  let number := fun name => (r.given.lookup name).bind number?
  .ok {
    model := ← r.required "model"
    context := ← r.required "context"
    settings := r.given.lookup "settings"
    maxChains := number "max-chains"
    minLength := number "min-length"
    maxLength := number "max-length"
    ignoredTypes := r.given.lookup "ignored-types"
    timeout := number "timeout"
    json := (r.given.lookup "json").isSome }

/-- The listing of members that words spell. -/
def MembersArgs.parse (words : List String) : Except UsageError MembersArgs := do
  let r ← readOptions membersOptions {} words
  .ok {
    model := ← r.required "model"
    type := ← r.required "type"
    ofType := (r.given.lookup "static").isSome
    site := r.given.lookup "from" }

/-- The commands, the one that explains the others included. -/
def commandNames : List String := ["search", "members", "help"]

/-- Why the words after an end of options are no command: none can follow. -/
def afterEnd : List String → UsageError
  | [] => .nothing
  | w :: _ => if commandNames.contains w then .unknownArgument else .unknownCommand

/-- Whether the words after `help` name at most one command. -/
def helpTopic : List String → UsageError
  | [] => .help
  | [w] => if commandNames.contains w then .help else .unknownCommand
  | _ => .unknownCommand

/-- The command that words spell. -/
def Command.parse : List String → Except UsageError Command
  | [] => .error .nothing
  | w :: ws =>
    match Word.ofString w with
    | .endOfOptions => .error (afterEnd ws)
    | .long name value =>
      if name = "help" ∨ name = "version" then
        .error (if value.isSome then .valueOfFlag else if name = "help" then .help else .version)
      else .error .unknownArgument
    | .short letter =>
      .error (if letter = 'h' then .help else if letter = 'V' then .version else .unknownArgument)
    | .plain "search" => (SearchArgs.parse ws).map .search
    | .plain "members" => (MembersArgs.parse ws).map .members
    | .plain "help" => .error (helpTopic ws)
    | .plain _ => .error .unknownCommand

end CallChain.CommandLine
