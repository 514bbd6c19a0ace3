import ConstraintFacets.CommandLine.Run

/-! # The program

Reads the files that the arguments ask for and leaves the rest to
`ConstraintFacets.Outcome.ofParsed`.
-/

namespace ConstraintFacets

/-- The fault of a file that cannot be read. -/
def FileFault.ofError : IO.Error → FileFault
  | .noFileOrDirectory _ _ _ => .notFound
  | .inappropriateType _ code _ => if code = 21 then .isDirectory else .notDirectory
  | error => .other (toString error)

/-- The text of a file on disk. -/
def readText (path : String) : IO (Except FileFault String) := do
  try
    return Files.decode (← IO.FS.readBinFile path)
  catch error =>
    return .error (.ofError error)

/-- The files that an invocation may read, with their texts. -/
def readFiles (paths : List String) : IO (Keyed (Except FileFault String)) :=
  paths.foldlM (fun texts path => return Keyed.insert texts path (← readText path)) []

end ConstraintFacets

open ConstraintFacets in
/-- Runs the program with the given arguments. -/
def main (arguments : List String) : IO UInt32 := do
  let parsed := Parsed.ofArguments arguments
  let paths :=
    match parsed with
    | .run invocation => invocation.paths
    | _ => []
  let texts ← readFiles paths
  let read := fun path => (Keyed.get? texts path).getD (.error .notFound)
  let outcome := Outcome.ofParsed read parsed
  IO.eprint outcome.messages
  IO.print outcome.output
  return outcome.code.toUInt32
