import GridCatalog.CellRange
import GridCatalog.Disk.PathText
import GridCatalog.Failure
import GridCatalog.Json.Reader
import GridCatalog.Json.Record
import GridCatalog.Json.Writer
import GridCatalog.Retention

/-! The settings of a catalog and their files.

    Every section and every field of a settings file may be missing and then has its default. A
    file is accepted only if its range can be read and temporary entries are not kept for a
    negative time. -/

namespace GridCatalog

/-- How sheets are read. -/
structure IngestSettings where
  /-- The range that is read of every sheet, in A1 notation. -/
  range : String
  /-- The owner of the datasets that are read. -/
  userId : String
deriving DecidableEq, Repr

/-- The first 26 columns, and a placeholder for the owner. -/
def IngestSettings.default : IngestSettings := ⟨"A:Z", "USER_ID"⟩

/-- The settings of a catalog. -/
structure Settings where
  inference : InferenceSettings
  ingest : IngestSettings
  retention : Retention
deriving DecidableEq, Repr

/-- The settings of a catalog that is told nothing. -/
def Settings.default : Settings := ⟨.default, .default, .default⟩

/-! ### The JSON form -/

/-- The JSON form of the settings for inference. -/
def InferenceSettings.toJson (s : InferenceSettings) : Json :=
  .ofMembers [("strict_numbers", .bool s.strictNumbers)]

def InferenceSettings.ofJson? (v : Json) : Option InferenceSettings := do
  let r ← v.record? ["strict_numbers"]
  return { strictNumbers := ← r.defaulted "strict_numbers" default.strictNumbers Json.bool? }

/-- The JSON form of the settings for reading sheets. -/
def IngestSettings.toJson (s : IngestSettings) : Json :=
  .ofMembers [("range", .ofString s.range), ("user_id", .ofString s.userId)]

def IngestSettings.ofJson? (v : Json) : Option IngestSettings := do
  let r ← v.record? ["range", "user_id"]
  return {
    range := ← r.defaulted "range" default.range Json.text?
    userId := ← r.defaulted "user_id" default.userId Json.text? }

def Retention.toJson (r : Retention) : Json :=
  .ofMembers [("temporary_ttl_minutes", .ofInt r.temporaryMinutes.toInt),
    ("archived_ttl_months", .ofNat r.archivedMonths.toNat)]

def minutesOfJson? (v : Json) : Option Int64 :=
  (Json.int? (-Text.intBound64) Text.intBound64 v).map Int64.ofInt

def monthsOfJson? (v : Json) : Option UInt32 :=
  (Json.int? 0 Text.natBound32 v).map fun n => UInt32.ofNat n.toNat

def Retention.ofJson? (v : Json) : Option Retention := do
  let r ← v.record? ["temporary_ttl_minutes", "archived_ttl_months"]
  return {
    temporaryMinutes :=
      ← r.defaulted "temporary_ttl_minutes" default.temporaryMinutes minutesOfJson?
    archivedMonths := ← r.defaulted "archived_ttl_months" default.archivedMonths monthsOfJson? }

namespace Settings

def toJson (s : Settings) : Json :=
  .ofMembers [("inference", s.inference.toJson), ("ingest", s.ingest.toJson),
    ("retention", s.retention.toJson)]

def ofJson? (v : Json) : Option Settings := do
  let r ← v.record? ["inference", "ingest", "retention"]
  return {
    inference := ← r.defaulted "inference" default.inference InferenceSettings.ofJson?
    ingest := ← r.defaulted "ingest" default.ingest IngestSettings.ofJson?
    retention := ← r.defaulted "retention" default.retention Retention.ofJson? }

/-! ### Checks -/

/-- The range that is read of every sheet. -/
def range (s : Settings) : Except Failure CellRange :=
  let text := s.ingest.range
  match CellRange.ofText? text with
  | some range => .ok range
  | none => .error (.settings ("ingest.range: " ++ (SourceError.invalidRange text).message))

/-- Checks what the types of the fields leave open. -/
def check (s : Settings) : Except Failure Unit :=
  match s.range with
  | .error failure => .error failure
  | .ok _ =>
    if s.retention.temporaryMinutes < 0 then
      .error (.settings "retention.temporary_ttl_minutes must not be negative")
    else .ok ()

/-! ### Files -/

/-- The settings in the bytes of a file. -/
def ofBytes (bytes : List UInt8) : Except Failure Settings :=
  match (Json.ofBytes? bytes).bind ofJson? with
  | some s => s.check.map fun _ => s
  | none => .error .malformed

/-- Loads settings from a file. A directory counts as a file that cannot be read. -/
def load (d : Disk) (base : Path) (path : String) : Except Failure Settings :=
  match d.readAt base path with
  | .ok bytes => ofBytes bytes
  | .error .isADirectory => .error .malformed
  | .error fault => .error (.file path fault)

def toBytes (s : Settings) : List UInt8 := Text.utf8Encode (Json.indented 0 s.toJson)

/-- Makes the directory that a file is to lie in, unless something is there. -/
def makeParent (d : Disk) (base : Path) (path : String) : Except Failure Unit × Disk :=
  let parent := PathText.parent path
  if parent = "" then (.ok (), d)
  else match d.ensureDirectoryAt base parent with
    | (.ok (), d) => (.ok (), d)
    | (.error fault, d) => (.error (.file parent fault), d)

/-- Saves settings to a file; a failure leaves the directories made. -/
def save (s : Settings) (d : Disk) (base : Path) (path : String) : Except Failure Unit × Disk :=
  match makeParent d base path with
  | (.error failure, d) => (.error failure, d)
  | (.ok (), d) =>
    match d.writeAt base path s.toBytes with
    | .ok d => (.ok (), d)
    | .error fault => (.error (.file path fault), d)

end Settings

end GridCatalog
