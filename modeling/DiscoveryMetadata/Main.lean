import DiscoveryMetadata.CommandLine
/-
  The program: reads the files that a run asks for, runs, and does what the run ends with.
-/
namespace DiscoveryMetadata.CommandLine

/-- The reason that a failed reading or writing gives. -/
def reasonOf : IO.Error → String
  | .noFileOrDirectory .. => Files.missing
  | .inappropriateType .. => Files.isDirectory
  | e => toString e

/-- Reads files, and keeps the reasons why some could not be read. -/
def readFiles (paths : List String) : IO Files := do
  let mut found : List (String × Except String String) := []
  for path in paths do
    let text ← try pure (Except.ok (← IO.FS.readFile path))
      catch e => pure (Except.error (reasonOf e))
    found := (path, text) :: found
  return fun path => (found.lookup path).getD (.error Files.missing)

/-- Does what a run ends with, and gives the exit code. -/
def Action.perform : Action → IO UInt32
  | .save path text => do
    try
      IO.FS.writeFile path text
      return 0
    catch e => respond (.failed (reasonOf e))
  | action => respond (action.response fun _ _ => .ok ())
where
  respond (r : Response) : IO UInt32 := do
    IO.print r.output
    IO.eprint r.complaint
    return r.code.toUInt32

end DiscoveryMetadata.CommandLine

open DiscoveryMetadata.CommandLine in
/-- Runs the program. The configuration tells which vocabularies to read, so files are read twice. -/
def main (args : List String) : IO UInt32 := do
  let first ← readFiles (sources DiscoveryMetadata.Files.none args)
  let files ← readFiles (sources first args)
  (run files args).perform
