import QueryAudit.CommandLine.Run

/-! The program: it reads the files that its arguments name, and prints what a check leaves
behind. -/
namespace QueryAudit.CommandLine

/-- Reads a file, with its fault if it cannot be read. -/
def readPath (path : String) : IO (Except ReadFault String) := do
  try
    return decodeText (← IO.FS.readBinFile path)
  catch fault =>
    return .error <| match fault with
      | .noFileOrDirectory .. => .notFound
      | .inappropriateType _ 21 _ => .isDirectory
      | .inappropriateType .. => .notDirectory
      | fault => .other (toString fault)

/-- Reads every file that the options name, once. -/
def readAll (options : Options) : IO Read := do
  let paths := (options.config.toList ++ options.units).eraseDups
  let table ← paths.mapM fun path => do return (path, ← readPath path)
  return fun path => (table.lookup path).getD (.error .notFound)

/-- Does what the arguments ask for, and gives the exit status. -/
def execute (arguments : List String) : IO UInt32 := do
  match parse arguments with
  | .error cause =>
    IO.eprint ("error: " ++ cause.message ++ "\n\n" ++ usageLine)
    return 2
  | .ok .help =>
    IO.print helpText
    return 0
  | .ok .version =>
    IO.print versionText
    return 0
  | .ok (.check options) =>
    let outcome := run (← readAll options) options
    for line in outcome.trace do
      IO.eprintln line.compact
    IO.print outcome.output
    if let some failure := outcome.failure then
      IO.eprintln failure.message
    return outcome.status.toUInt32

end QueryAudit.CommandLine

def main (arguments : List String) : IO UInt32 :=
  QueryAudit.CommandLine.execute arguments
