import GridCatalog.CommandLine.Report
import GridCatalog.Service.Request
import GridCatalog.Source.Directory
import GridCatalog.Store.JsonDirectory

/-! Carrying out command lines.

    A run takes the disk, the working directory and a command line, and gives the exit code, what
    is printed, and the disk afterwards. -/

namespace GridCatalog.CommandLine

/-- What a run leaves behind. -/
structure Outcome where
  code : Nat
  output : String
  errors : String
  disk : Disk

/-- Where a run takes place, and what it does not decide itself. -/
structure Setting where
  directory : Path
  freshId : Nat → String
  clock : Nat → Instant

/-- The settings of a run: those of the file, if one is given, with what the options say. -/
def settings (disk : Disk) (directory : Path) (g : Globals) : Except Failure Settings := do
  let s ← match g.config with
    | some path => Settings.load disk directory path
    | none => .ok .default
  return { s with
    ingest := { s.ingest with userId := g.user.getD s.ingest.userId }
    inference := ⟨s.inference.strictNumbers || g.strictNumbers⟩ }

def service (setting : Setting) (disk : Disk) (g : Globals) (s : Settings) : Service Disk where
  store := JsonDirectory.store ⟨setting.directory, g.store⟩
  source := TextFiles.toSource ⟨disk, setting.directory, none, none⟩
  settings := s
  surroundings := ⟨fun _ _ => none, setting.freshId, setting.clock⟩

/-- The approval in a file. A directory counts as a file that cannot be read. -/
def approvalFile (disk : Disk) (directory : Path) (path : String) : Except Failure Approval :=
  match disk.readAt directory path with
  | .ok bytes =>
    match (Json.ofBytes? bytes).bind Approval.ofJson? with
    | some approval => .ok approval
    | none => .error .malformed
  | .error .isADirectory => .error .malformed
  | .error fault => .error (.file path fault)

/-- The settings of a run with a range that was given for it. -/
def withRange (s : Settings) (range : Option String) : Except Failure Settings := do
  let s := { s with ingest := { s.ingest with range := range.getD s.ingest.range } }
  s.check
  return s

/-- Lines for people, or the indented JSON text in their place. -/
def linesOr (asJson : Bool) (value : Json) (lines : List String) : List String :=
  if asJson then jsonLines value else lines

/-- Carries out a command and gives the lines that it prints. -/
def perform (setting : Setting) (disk : Disk) (i : Invocation) : Task Disk (List String) := do
  let load : Task Disk Settings := liftExcept (settings disk setting.directory i.globals)
  let catalog (s : Settings) : Service Disk := service setting disk i.globals s
  match i.command with
  | .ingest source range asJson => do
    let s ← liftExcept (withRange (← load) range)
    let entries ← (catalog s).ingest source
    return linesOr asJson (.array (entries.map Entry.toJson)) (ingestLines source entries)
  | .list after limit asJson => do
    let entries ← (catalog (← load)).list after limit
    return linesOr asJson (.array (entries.map Entry.toJson)) (listLines entries limit)
  | .read id skip limit => do
    let skip ← liftExcept (Service.pageBound "skip" skip)
    let limit ← match limit with
      | some limit => liftExcept (Service.pageBound "limit" limit)
      | none => pure largestLimit
    let page ← (catalog (← load)).read id skip limit
    return jsonLines page.toJson
  | .approveFile id file asJson => do
    let s ← load
    let approval ← liftExcept (approvalFile disk setting.directory file)
    let entry ← (catalog s).approve id approval
    return linesOr asJson entry.toJson (approveLines entry)
  | .approve id name columns asJson => do
    let s ← load
    let current ← (catalog s).entry id
    let entry ← (catalog s).approve id (ColumnSpec.approval name columns current.header)
    return linesOr asJson entry.toJson (approveLines entry)
  | .archive id => do
    let s ← load
    let entry ← (catalog s).archive id
    return archiveLines entry s.retention.archivedMonths.toNat
  | .sweep asJson => do
    let report ← (catalog (← load)).sweep
    return linesOr asJson report.toJson (sweepLines report)
  | .inspect id asJson => do
    let entry ← (catalog (← load)).entry id
    return linesOr asJson entry.toJson (inspectLines entry)
where
  /-- A result as a task. -/
  liftExcept {α : Type} (r : Except Failure α) : Task Disk α := ExceptT.mk (pure r)

def run (setting : Setting) (disk : Disk) (arguments : List String) : Outcome :=
  match invocation arguments with
  | .error .usage => ⟨2, "", unlines usageLines, disk⟩
  | .error .help => ⟨0, unlines usageLines, "", disk⟩
  | .error (.version command) => ⟨0, unlines [versionLine command], "", disk⟩
  | .ok i =>
    let (answer, w) := (perform setting disk i).run (World.start disk)
    let log := logLines i.globals w.log
    match answer with
    | .ok lines => ⟨0, unlines lines, unlines log, w.store⟩
    | .error f => ⟨1, "", unlines (log ++ [failureLine f]), w.store⟩

end GridCatalog.CommandLine
