/-
# The program

Reads the files that the command line names, runs the command on their
contents, prints, and exits.
-/
import CallChain.CommandLine.Execute

namespace CallChain.CommandLine

/-- The contents of the files that can be read, with their paths. -/
def readFiles (paths : List String) : IO (List (String × String)) :=
  paths.filterMapM fun (path : String) => do
    try
      let content ← IO.FS.readFile path
      return some (path, content)
    catch _ => return none

end CallChain.CommandLine

open CallChain.CommandLine in
/-- Runs the words of the command line. -/
def main (words : List String) : IO UInt32 := do
  let paths := match Command.parse words with
    | .ok c => c.paths
    | .error _ => []
  let contents ← readFiles paths
  let exit := run (fun path => contents.lookup path) words
  IO.print exit.stdout
  IO.eprint exit.stderr
  return UInt32.ofNat exit.code
