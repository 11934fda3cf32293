import ObjectLayout.Command.Run

/-!
# The command

Reads the files that the command line names, runs the command on their contents, and writes what the
run leaves behind.
-/

set_option autoImplicit false

namespace ObjectLayout

/-- The content of a file, or `none` where it cannot be read. -/
def readContent (file : String) : IO (Option String) := do
  try
    return some (← IO.FS.readFile file)
  catch _ =>
    return none

/-- The contents of files. -/
def readContents (names : List String) : IO Command.Files := do
  let contents ← names.mapM fun name => return (name, ← readContent name)
  return fun name => (contents.lookup name).join

end ObjectLayout

open ObjectLayout in
/-- Runs the command. -/
def main (words : List String) : IO UInt32 := do
  let names :=
    match Command.Arguments.parse words with
    | .ok arguments => arguments.classes :: arguments.config.toList
    | .error _ => []
  let outcome := Command.runWords (← readContents names) none words
  for line in outcome.stderr do
    IO.eprintln line
  IO.print outcome.stdout
  return outcome.exitCode.toUInt32
