import Mathlib.Data.List.Forall2
import QueryAudit.CommandLine.Run
import QueryAudit.Proofs.LoadedUnits
import QueryAudit.Proofs.WrittenDumps

/-! Units that are checked together do not influence each other. A unit of a batch lies in the
batch as its dump declares it: its types are apart from the types of all other units, and nothing
that is loaded later touches them. So a check of many units says about each of them what a check
of that unit alone says, up to the number of its file. -/
namespace QueryAudit

variable {dump : UnitDump} {contents : Contents} {batch : Batch} {unit : SourceUnit}

namespace Batch

/-- A unit of a batch that stands for a dump. -/
structure Represents (batch : Batch) (dump : UnitDump) (contents : Contents) (unit : SourceUnit) :
    Prop where
  lies : ∃ place, contents.types.LiesIn batch.types place ∧
    unit.roots = Expr.retypeChildren place contents.roots
  text : unit.text = dump.text
  file : batch.sources.files[unit.file.index]? = some ⟨dump.file, dump.text⟩

/-- A batch with one more unit, its types past all types of the batch. -/
def extend (batch : Batch) (dump : UnitDump) (contents : Contents) : Batch where
  types := batch.types.append (contents.kinds.map (Kind.move (TypeId.past batch.types.size)))
  sources := ⟨batch.sources.files.push ⟨dump.file, dump.text⟩⟩
  units := batch.units.push ⟨⟨batch.sources.files.size⟩, dump.text,
    Expr.retypeChildren (TypeId.past batch.types.size) contents.roots⟩

/-- A dump with contents can be added to any batch. -/
theorem add_eq {text : String} (readable : UnitDump.read? text = some dump)
    (declared : dump.contents = .ok contents) (batch : Batch) :
    batch.add text = .ok (batch.extend dump contents) := by
  obtain ⟨loaded, filled⟩ := dump.load_eq batch.types
  rw [declared] at loaded
  have outcome : dump.load batch.types =
      (.ok ⟨dump.file, dump.text,
          Expr.retypeChildren (TypeId.past batch.types.size) contents.roots⟩,
        batch.types.append (contents.kinds.map (Kind.move (TypeId.past batch.types.size)))) :=
    Prod.ext loaded (filled contents declared)
  simp only [add, UnitDump.loadText, readable, outcome]
  rfl

theorem represents_extend (batch : Batch) (dump : UnitDump) (contents : Contents) :
    (batch.extend dump contents).Represents dump contents ⟨⟨batch.sources.files.size⟩, dump.text,
      Expr.retypeChildren (TypeId.past batch.types.size) contents.roots⟩ := by
  refine ⟨⟨TypeId.past batch.types.size, contents.lies batch.types, rfl⟩, rfl, ?_⟩
  simp [extend]

/-- What is added leaves the units that are there as they are. -/
theorem Represents.extend (represents : batch.Represents dump contents unit) (more : UnitDump)
    (moreContents : Contents) :
    (batch.extend more moreContents).Represents dump contents unit := by
  obtain ⟨⟨place, lies, roots⟩, text, file⟩ := represents
  refine ⟨⟨place, ⟨lies.apart, ?_⟩, roots⟩, text, ?_⟩
  · intro id kind held
    exact Store.kind?_append (lies.held id kind held)
  · obtain ⟨bound, found⟩ := Array.getElem?_eq_some_iff.mp file
    rw [Batch.extend, Array.getElem?_push_lt bound]
    exact congrArg some found

end Batch

/-! ## What is said about a unit -/

/-- The report on one unit. -/
def Pass.unitReport (config : Config) (model : Model) (unit : SourceUnit) : Pass.UnitReport :=
  let report := checkUnit config model .never unit
  ⟨unit.file, Diagnostic.sort report.diagnostics, report.summary, report.events⟩

namespace Batch.Represents

variable {other : Batch} {unitThere : SourceUnit}

/-- What a check of a unit finds is what its dump declares, up to the file. -/
theorem report (represents : batch.Represents dump contents unit)
    (declared : dump.contents = .ok contents) (config : Config) :
    let alone := Pass.checkUnit config (.ofFacts contents.types) .never
      ⟨⟨0⟩, dump.text, contents.roots⟩
    (Pass.unitReport config batch.model unit).diagnostics =
        Diagnostic.sort (alone.diagnostics.map (Diagnostic.inFile unit.file)) ∧
      (Pass.unitReport config batch.model unit).summary = alone.summary := by
  obtain ⟨⟨place, lies, roots⟩, text, _⟩ := represents
  obtain ⟨diagnostics, summary⟩ := Pass.checkUnit_moved config
    ⟨⟨0⟩, dump.text, contents.roots⟩ unit lies (UnitDump.contents_selfContained declared)
    (UnitDump.contents_within declared) roots text
  exact ⟨congrArg Diagnostic.sort diagnostics, summary⟩

/-- Two units that stand for one dump get the same report, up to the file. -/
theorem same_report (here : batch.Represents dump contents unit)
    (there : other.Represents dump contents unitThere) (declared : dump.contents = .ok contents)
    (config : Config) :
    (Pass.unitReport config batch.model unit).diagnostics =
        (Pass.unitReport config other.model unitThere).diagnostics.map
          (Diagnostic.inFile unit.file) ∧
      (Pass.unitReport config batch.model unit).summary =
        (Pass.unitReport config other.model unitThere).summary := by
  obtain ⟨found, summary⟩ := here.report declared config
  obtain ⟨foundThere, summaryThere⟩ := there.report declared config
  rw [found, foundThere, summary, summaryThere]
  exact ⟨Diagnostic.sort_inFile _, rfl⟩

/-- The diagnostics on two units that stand for one dump have the same texts. -/
theorem same_texts (here : batch.Represents dump contents unit)
    (there : other.Represents dump contents unitThere) (declared : dump.contents = .ok contents)
    (config : Config) :
    (Pass.unitReport config batch.model unit).diagnostics.map (·.render batch.sources) =
      (Pass.unitReport config other.model unitThere).diagnostics.map (·.render other.sources) := by
  have files : batch.sources.files[unit.file.index]? =
      other.sources.files[unitThere.file.index]? := here.file.trans there.file.symm
  have moved := (here.same_report there declared config).1
  have stays := (there.same_report there declared config).1
  rw [moved, List.map_map]
  conv => rhs; rw [stays, List.map_map]
  exact List.map_congr_left fun diagnostic _ => Diagnostic.render_inFile files diagnostic

end Batch.Represents

/-! ## Checking many units and checking one -/

namespace CommandLine

variable {read : Read} {path : String} {paths : List String}

/-- The dump on a path, with its contents. -/
inductive Describes (read : Read) (path : String) (dump : UnitDump) (contents : Contents) :
    Prop where
  | intro {text : String} (found : read path = .ok text)
      (readable : UnitDump.read? text = some dump) (declared : dump.contents = .ok contents) :
      Describes read path dump contents

theorem Describes.declared (describes : Describes read path dump contents) :
    dump.contents = .ok contents := by
  obtain ⟨_, _, declared⟩ := describes
  exact declared

theorem Describes.unique {otherDump : UnitDump} {otherContents : Contents}
    (left : Describes read path dump contents)
    (right : Describes read path otherDump otherContents) :
    dump = otherDump ∧ contents = otherContents := by
  obtain ⟨found, readable, declared⟩ := left
  obtain ⟨foundAgain, readableAgain, declaredAgain⟩ := right
  cases found.symm.trans foundAgain
  cases readable.symm.trans readableAgain
  cases declared.symm.trans declaredAgain
  exact ⟨rfl, rfl⟩

/-- A dump that can be loaded. -/
def Loads (read : Read) (path : String) : Prop :=
  ∃ text, read path = .ok text ∧ (UnitDump.loadText text .empty).1.isOk = true

theorem loads_iff : Loads read path ↔ ∃ dump contents, Describes read path dump contents := by
  constructor
  · rintro ⟨text, found, loaded⟩
    unfold UnitDump.loadText at loaded
    cases readable : UnitDump.read? text with
    | none => simp [readable, Except.isOk, Except.toBool] at loaded
    | some dump =>
      simp only [readable, (dump.load_eq .empty).1] at loaded
      cases declared : dump.contents with
      | error cause => simp [declared, Except.map, Except.isOk, Except.toBool] at loaded
      | ok contents => exact ⟨dump, contents, found, readable, declared⟩
  · rintro ⟨dump, contents, found, readable, declared⟩
    refine ⟨_, found, ?_⟩
    simp only [UnitDump.loadText, readable, (dump.load_eq .empty).1, declared]
    rfl

/-- A batch with exactly the units on some paths, numbered in order. -/
structure Holds (read : Read) (paths : List String) (batch : Batch) : Prop where
  units : List.Forall₂ (fun path unit => ∃ dump contents, Describes read path dump contents ∧
    batch.Represents dump contents unit) paths batch.units.toList
  files : batch.units.toList.map (·.file.index) = List.range paths.length
  size : batch.sources.files.size = paths.length

theorem holds_nothing (read : Read) : Holds read [] {} :=
  ⟨.nil, rfl, rfl⟩

/-- Loading one more unit. -/
theorem Holds.loadUnit (holds : Holds read paths batch)
    (describes : Describes read path dump contents) :
    ∃ grown, CommandLine.loadUnit read batch path = .ok grown ∧
      Holds read (paths ++ [path]) grown := by
  have told := describes
  obtain ⟨found, readable, declared⟩ := told
  refine ⟨batch.extend dump contents, ?_, ?_, ?_, ?_⟩
  · simp only [CommandLine.loadUnit, found, Batch.add_eq readable declared]
  · have earlier : List.Forall₂ (fun path unit => ∃ dumpThere contentsThere,
        Describes read path dumpThere contentsThere ∧
          (batch.extend dump contents).Represents dumpThere contentsThere unit)
        paths batch.units.toList :=
      holds.units.imp fun _ _ ⟨dumpThere, contentsThere, isDescribed, represents⟩ =>
        ⟨dumpThere, contentsThere, isDescribed, represents.extend dump contents⟩
    rw [Batch.extend, Array.toList_push]
    exact List.rel_append earlier
      (.cons ⟨dump, contents, describes, batch.represents_extend dump contents⟩ .nil)
  · simp [Batch.extend, holds.files, holds.size, List.range_succ]
  · simp [Batch.extend, holds.size]

/-- Loading any number of units. -/
theorem Holds.loadAll (holds : Holds read paths batch) {more : List String}
    (loads : ∀ path ∈ more, Loads read path) :
    ∃ loaded, more.foldlM (CommandLine.loadUnit read) batch = .ok loaded ∧
      Holds read (paths ++ more) loaded := by
  induction more generalizing paths batch with
  | nil => exact ⟨batch, rfl, by simpa using holds⟩
  | cons path rest ih =>
    obtain ⟨dump, contents, describes⟩ := loads_iff.mp (loads path List.mem_cons_self)
    obtain ⟨grown, added, holdsGrown⟩ := holds.loadUnit describes
    obtain ⟨loaded, all, holdsAll⟩ :=
      ih holdsGrown fun path listed => loads path (List.mem_cons_of_mem _ listed)
    rw [List.append_assoc] at holdsAll
    refine ⟨loaded, ?_, holdsAll⟩
    rw [List.foldlM_cons, added]
    exact all

variable {options : Options} {config : Config}

theorem check_ok (options : Options) (valid : loadConfig read options.config = .ok config)
    (loads : ∀ path ∈ options.units, Loads read path) :
    ∃ batch, check read options =
        .ok ⟨batch, batch.units.toList.map (Pass.unitReport config batch.model)⟩ ∧
      Holds read options.units batch := by
  obtain ⟨batch, loaded, holds⟩ := (holds_nothing read).loadAll loads
  refine ⟨batch, ?_, holds⟩
  simp only [check, valid, loaded, bind, Except.bind, pure, Except.pure]
  rfl

/-- The options with one of the units only. -/
def Options.alone (options : Options) (path : String) : Options :=
  { options with units := [path] }

/-- What is printed for people about one unit. -/
def Findings.unitText (findings : Findings) (report : Pass.UnitReport) : String :=
  String.join (report.diagnostics.map fun diagnostic =>
    diagnostic.render findings.batch.sources ++ "\n")

theorem Findings.human_eq (findings : Findings) :
    findings.human = String.join (findings.reports.map findings.unitText) := by
  unfold human
  induction findings.reports with
  | nil => rfl
  | cons report rest ih =>
    rw [List.flatMap_cons, String.join_append, ih, List.map_cons, String.join_cons]
    rfl

/-- A report that says about a unit what the check of the unit alone says, up to the file. -/
inductive Agrees (read : Read) (options : Options) (findings : Findings) (path : String)
    (report : Pass.UnitReport) : Prop where
  | intro {own : Findings} {ownReport : Pass.UnitReport}
      (checked : check read (options.alone path) = .ok own) (only : own.reports = [ownReport])
      (summary : report.summary = ownReport.summary)
      (diagnostics : report.diagnostics =
        ownReport.diagnostics.map (Diagnostic.inFile report.file))
      (texts : findings.unitText report = own.unitText ownReport) :
      Agrees read options findings path report

/-- A unit of a batch gets the report that it gets alone. -/
theorem Describes.agrees (describes : Describes read path dump contents) (findings : Findings)
    (represents : findings.batch.Represents dump contents unit)
    (valid : loadConfig read options.config = .ok config) :
    Agrees read options findings path (Pass.unitReport config findings.batch.model unit) := by
  have declared : dump.contents = .ok contents := describes.declared
  have loads : ∀ other ∈ (options.alone path).units, Loads read other := by
    intro other listed
    rw [List.mem_singleton.mp listed]
    exact loads_iff.mpr ⟨dump, contents, describes⟩
  obtain ⟨own, checked, holds⟩ := check_ok (options.alone path) valid loads
  obtain ⟨ownUnit, rest, ⟨_, _, again, representsOwn⟩, others, only⟩ :=
    List.forall₂_cons_left_iff.mp holds.units
  cases List.forall₂_nil_left_iff.mp others
  obtain ⟨rfl, rfl⟩ := describes.unique again
  obtain ⟨diagnostics, summary⟩ := represents.same_report representsOwn declared config
  refine .intro checked ?_ summary diagnostics ?_
  · simp only [only, List.map_cons, List.map_nil]
  · have texts := congrArg (List.map (· ++ "\n"))
      (represents.same_texts representsOwn declared config)
    simp only [List.map_map] at texts
    exact congrArg String.join texts

variable {findings : Findings} {report : Pass.UnitReport}

/-- The run with one unit prints what is printed about it among others. -/
theorem Agrees.output (agrees : Agrees read options findings path report)
    (human : options.format.getD .human = .human) :
    (run read (options.alone path)).output = findings.unitText report := by
  obtain ⟨checked, only, _, _, texts⟩ := agrees
  have format : (options.alone path).format.getD .human = .human := human
  simp only [run, checked, format, Findings.print, Findings.human_eq, only, texts, List.map_cons,
    List.map_nil, String.join_cons, String.join_nil, String.append_empty]

/-- The run with one unit finds something exactly when something is found there among others. -/
theorem Agrees.status (agrees : Agrees read options findings path report) :
    (run read (options.alone path)).status = if !report.diagnostics.isEmpty then 1 else 0 := by
  obtain ⟨checked, only, _, diagnostics, _⟩ := agrees
  simp [run, checked, Findings.any, only, diagnostics]

/-- A run on many units prints what the runs on each of them print, one after the other, and finds
something exactly when one of them does; every unit gets the report that it gets alone, up to the
number of its file. -/
theorem run_units_independent (read : Read) (options : Options) (config : Config)
    (valid : loadConfig read options.config = .ok config)
    (human : options.format.getD .human = .human)
    (loads : ∀ path ∈ options.units, Loads read path) :
    (run read options).output =
        String.join (options.units.map fun path => (run read (options.alone path)).output) ∧
      (run read options).status =
        (if ∃ path ∈ options.units, (run read (options.alone path)).status = 1 then 1 else 0) ∧
      ∃ findings, check read options = .ok findings ∧
        findings.reports.map (·.file.index) = List.range options.units.length ∧
        List.Forall₂ (fun path report => ∃ own ownReport,
            check read (options.alone path) = .ok own ∧ own.reports = [ownReport] ∧
              report.summary = ownReport.summary ∧
              report.diagnostics = ownReport.diagnostics.map (Diagnostic.inFile report.file))
          options.units findings.reports := by
  obtain ⟨batch, checked, holds⟩ := check_ok options valid loads
  let findings : Findings := ⟨batch, batch.units.toList.map (Pass.unitReport config batch.model)⟩
  have agree : List.Forall₂ (Agrees read options findings) options.units findings.reports := by
    refine List.forall₂_map_right_iff.mpr (holds.units.imp ?_)
    rintro path unit ⟨dump, contents, describes, represents⟩
    exact describes.agrees findings represents valid
  have outputs : options.units.map (fun path => (run read (options.alone path)).output) =
      findings.reports.map findings.unitText := by
    rw [← List.forall₂_eq_eq_eq, List.forall₂_map_left_iff, List.forall₂_map_right_iff]
    exact agree.imp fun _ _ agrees => agrees.output human
  have statuses : options.units.map (fun path => (run read (options.alone path)).status) =
      findings.reports.map fun report => if !report.diagnostics.isEmpty then 1 else 0 := by
    rw [← List.forall₂_eq_eq_eq, List.forall₂_map_left_iff, List.forall₂_map_right_iff]
    exact agree.imp fun _ _ agrees => agrees.status
  have found : (∃ path ∈ options.units, (run read (options.alone path)).status = 1) ↔
      findings.any = true := by
    rw [← List.mem_map, statuses, List.mem_map, Findings.any, List.any_eq_true]
    simp
  have printed : (run read options).output = findings.human := by
    simp only [run, checked, human, Findings.print]
    rfl
  have status : (run read options).status = if findings.any then 1 else 0 := by
    simp only [run, checked]
    rfl
  refine ⟨?_, ?_, findings, checked, ?_, agree.imp ?_⟩
  · rw [outputs, printed, Findings.human_eq]
  · rw [status]
    simp only [found]
  · rw [← holds.files, List.map_map]
    rfl
  · rintro path report ⟨checkedAlone, only, summary, diagnostics, _⟩
    exact ⟨_, _, checkedAlone, only, summary, diagnostics⟩

/-- A dump that is written on one line loads. -/
theorem loads_compact (found : read path = .ok dump.toJson.compact)
    (fits : ∀ entry ∈ dump.types, entry.RankFits) (plain : dump.toJson.Plain Json.nestingLimit)
    (declared : dump.contents = .ok contents) : Loads read path :=
  loads_iff.mpr ⟨dump, contents, found, UnitDump.read?_compact fits plain, declared⟩

/-- A dump with one query that has to be reported. -/
def ordersDump : UnitDump where
  file := "Orders"
  types := [.named "Order" []]
  roots := [.call {} (.identifier {} "Join")
    [⟨none, .lambda {} ["o"] (.identifier { convertedType := some 0 } "o")⟩]
    (some (.method "Join" (some "System.Linq.Queryable")))]

/-- That dump on one path, and on every other path a dump of the same file without queries. -/
def ordersRead : Read := fun path =>
  .ok (if path = "orders" then ordersDump.toJson.compact
    else (UnitDump.toJson { file := "Orders" }).compact)

theorem ordersRead_loads : ∀ path ∈ ["orders", "empty", "orders"], Loads ordersRead path := by
  have orders : Loads ordersRead "orders" := by
    have plain : ordersDump.toJson.Plain Json.nestingLimit := by
      simp [ordersDump, UnitDump.toJson, TypeEntry.toJson, ExprEntry.toJson, ExprEntry.slotsJson,
        SlotEntry.argumentJson, Symbol.toJson, Note.fields, Json.ofList, Json.ofOption,
        Json.ofNat, Json.Plain, Json.nestingLimit]
    have declares : ∃ contents, ordersDump.contents = .ok contents := by
      simp [ordersDump, UnitDump.contents, TypeEntry.load, TypeId.first, typeIdAt, Note.load,
        Note.loadFacts, ExprEntry.loadChildren, ExprEntry.load, ExprEntry.loadSlots, Except.map,
        bind, Except.bind, pure, Except.pure]
    obtain ⟨contents, declared⟩ := declares
    exact loads_compact rfl (by simp [ordersDump, TypeEntry.RankFits]) plain declared
  have empty : Loads ordersRead "empty" := by
    have found : ordersRead "empty" = .ok (UnitDump.toJson { file := "Orders" }).compact := rfl
    refine loads_compact found (by simp) ?_ rfl
    simp [UnitDump.toJson, Json.ofList, Json.ofOption, Json.Plain, Json.nestingLimit]
  simp [orders, empty]

theorem run_units_independent_orders :
    let options : Options := { units := ["orders", "empty", "orders"] }
    loadConfig ordersRead options.config = .ok .default ∧
      options.format.getD .human = .human ∧ (∀ path ∈ options.units, Loads ordersRead path) ∧
      (run ordersRead options).output =
        String.join (options.units.map fun path => (run ordersRead (options.alone path)).output) ∧
      (run ordersRead options).status =
        if ∃ path ∈ options.units, (run ordersRead (options.alone path)).status = 1 then 1 else 0 := by
  intro options
  obtain ⟨output, status, _⟩ :=
    run_units_independent ordersRead options .default rfl rfl ordersRead_loads
  exact ⟨rfl, rfl, ordersRead_loads, output, status⟩

end CommandLine
end QueryAudit
