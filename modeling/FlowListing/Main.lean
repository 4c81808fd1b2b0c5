import FlowListing.Command.Run

/-!
# The program

The program loads what its arguments can reach of the file system, runs the command on it, and carries out what the command did.
-/

namespace FlowListing.Command

/-- The files and directories on the way along a path, as they are now. -/
def loadPath (tree : FileTree) (path : String) : IO FileTree :=
  (placesAlong path).foldlM (fun tree place => do
    try
      let real ← IO.FS.realPath place.path
      match (← real.metadata).type with
      | .dir => return { tree with directories := place :: tree.directories }
      | .file =>
        let bytes ← IO.FS.readBinFile real
        return tree.write place bytes.data.toList
      | _ => return tree.write place []
    catch _ => return tree) tree

end FlowListing.Command

open FlowListing FlowListing.Command in
/-- The program: its arguments, and the exit code. -/
def main (args : List String) : IO UInt32 := do
  let paths := match Arguments.read args with
    | .ok arguments => arguments.others.take 1 ++ (arguments.value? .output).toList
    | .error _ => []
  let files ← paths.foldlM loadPath {}
  let header ← IO.getEnv "FLOWSCRIPT_HEADER"
  let encoding ← IO.getEnv "FLOWSCRIPT_ENCODING"
  let endianness ← IO.getEnv "FLOWSCRIPT_ENDIANNESS"
  let outcome := run .standard files ⟨header, encoding, endianness⟩ args
  try
    for (place, bytes) in outcome.files.changes files do
      IO.FS.writeBinFile place.path ⟨bytes.toArray⟩
  catch error =>
    let ending := Host.standard.ending (.parameter error.toString) false ""
    IO.eprint ending.stderr
    return ending.exitCode.toUInt32
  IO.print outcome.stdout
  IO.eprint outcome.stderr
  return outcome.exitCode.toUInt32
