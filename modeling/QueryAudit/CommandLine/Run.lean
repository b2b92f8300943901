import QueryAudit.CommandLine.Folder
import QueryAudit.CommandLine.Options
import QueryAudit.Config.Reader
import QueryAudit.Diagnostic.Render
import QueryAudit.Dump.Load
import QueryAudit.Pass.Run

/-! Running a check from the command line: the configuration is read first, then every unit dump
in turn; if all can be read, all are checked. -/
namespace QueryAudit

/-- Units that are checked together. They share one type store, and the number of a unit's file is
the unit's position. -/
structure Batch where
  types : Store := .empty
  sources : SourceFiles := {}
  units : Array SourceUnit := #[]

namespace Batch

/-- Adds the unit that a dump describes. -/
def add (batch : Batch) (dump : String) : Except DumpError Batch :=
  match UnitDump.loadText dump batch.types with
  | (.error cause, _) => .error cause
  | (.ok unit, types) =>
    let (file, sources) := batch.sources.add ⟨unit.file, unit.text⟩
    .ok { types, sources, units := batch.units.push ⟨file, unit.text, unit.roots⟩ }

def model (batch : Batch) : Model :=
  .ofFacts batch.types

end Batch

namespace CommandLine

/-- Why a check could not be made. -/
inductive Failure where
  | configUnreadable (path : String) (fault : ReadFault)
  | configRefused (path : String) (cause : ConfigError)
  | dumpUnreadable (path : String) (fault : ReadFault)
  | dumpRefused (path : String) (cause : DumpError)

namespace Failure

/-- What happened, up to the explanation of a text that is not of the expected form. -/
def headline : Failure → String
  | configUnreadable path fault => "failed to read config " ++ path ++ ": " ++ fault.message
  | configRefused path cause => path ++ ": " ++ cause.headline
  | dumpUnreadable path fault => path ++ ": failed to read " ++ path ++ ": " ++ fault.message
  | dumpRefused path cause => path ++ ": " ++ cause.headline

/-- The explanation of a text that is not of the expected form. -/
def explanation? : Failure → Option String
  | configRefused _ cause => cause.explanation?
  | dumpRefused _ cause => cause.explanation?
  | _ => none

def message (failure : Failure) : String :=
  failure.headline ++ failure.explanation?.getD ""

end Failure

/-- What is found on a path. -/
abbrev Read : Type :=
  String → Except ReadFault String

def loadConfig (read : Read) : Option String → Except Failure Config
  | none => .ok .default
  | some path =>
    match read path with
    | .error fault => .error (.configUnreadable path fault)
    | .ok text =>
      match Config.read text with
      | .error cause => .error (.configRefused path cause)
      | .ok config => .ok config

/-- Adds the dump on a path to a batch. -/
def loadUnit (read : Read) (batch : Batch) (path : String) : Except Failure Batch :=
  match read path with
  | .error fault => .error (.dumpUnreadable path fault)
  | .ok text =>
    match batch.add text with
    | .error cause => .error (.dumpRefused path cause)
    | .ok batch => .ok batch

/-- The reports on all units of a batch. -/
structure Findings where
  batch : Batch
  reports : List Pass.UnitReport

/-- Reads and checks what the options name. -/
def check (read : Read) (options : Options) : Except Failure Findings := do
  let config ← loadConfig read options.config
  let batch ← options.units.foldlM (loadUnit read) {}
  return ⟨batch, Pass.checkUnits config batch.model batch.units.toList⟩

namespace Findings

/-- Whether anything was reported. -/
def any (findings : Findings) : Bool :=
  findings.reports.any fun report => !report.diagnostics.isEmpty

/-- Every diagnostic with its excerpts, followed by an empty line. -/
def human (findings : Findings) : String :=
  String.join (findings.reports.flatMap fun report =>
    report.diagnostics.map fun diagnostic => diagnostic.render findings.batch.sources ++ "\n")

def reportJson (findings : Findings) (report : Pass.UnitReport) : Json :=
  .object [
    ("file", .ofOption .string (findings.batch.sources.name? report.file)),
    ("classified", .ofNat report.summary.classified),
    ("reported", .ofNat report.summary.reported),
    ("diagnostics", .ofList Diagnostic.toJson report.diagnostics)]

def json (findings : Findings) : String :=
  Json.indented (.object [("units", .ofList findings.reportJson findings.reports)]) ++ "\n"

def print (findings : Findings) : Format → String
  | .human => findings.human
  | .json => findings.json

/-- The span of a unit while it is checked. -/
def unitSpan (unit : SourceUnit) : Json :=
  .object [
    ("file", .ofNat unit.file.index), ("roots", .ofNat unit.roots.length),
    ("name", .string "linq_check.analyze")]

/-- The lines of the trace, without records of the finest level. -/
def trace (findings : Findings) : List Json :=
  (findings.batch.units.toList.zip findings.reports).flatMap fun (unit, report) =>
    ((Event.records report.events).filter (·.level = .debug)).map (·.line (unitSpan unit))

end Findings

/-- What a run leaves behind. -/
structure Outcome where
  /-- Exit status: 0 when nothing was reported, 1 when something was, 2 when no check was made. -/
  status : Nat
  output : String := ""
  failure : Option Failure := none
  trace : List Json := []

/-- Makes the check that the options ask for. -/
def run (read : Read) (options : Options) : Outcome :=
  match check read options with
  | .error failure => { status := 2, failure := some failure }
  | .ok findings =>
    { status := if findings.any then 1 else 0
      output := findings.print (options.format.getD .human)
      trace := if options.trace then findings.trace else [] }

end CommandLine
end QueryAudit
