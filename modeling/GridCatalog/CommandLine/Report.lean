import GridCatalog.Calendar.Rfc3339
import GridCatalog.CommandLine.Invocation
import GridCatalog.Json.Writer
import GridCatalog.Record
import GridCatalog.Service.Sweep

/-! What the program prints. -/

namespace GridCatalog.CommandLine

def programName : String := "sheetset"

def versionNumber : String := "0.1.0"

/-- Lines with a line break behind each. -/
def unlines (lines : List String) : String := String.join (lines.map fun line => line ++ "\n")

/-- The line about the version of the program or of one of its commands. -/
def versionLine (command : Option String) : String :=
  let name := match command with
    | some command => programName ++ "-" ++ command
    | none => programName
  name ++ " " ++ versionNumber

/-- The lines about the use of the program. -/
def usageLines : List String :=
  ("Usage: " ++ programName ++ " [OPTIONS] <COMMAND>") :: "" :: "Commands:" ::
    grammar.names.map fun name => "  " ++ name

/-- A number with a noun in the singular or the plural. -/
def counted (n : Nat) (one many : String) : String :=
  Text.natText n ++ " " ++ (if n = 1 then one else many)

/-- An indented JSON text on lines of its own. -/
def jsonLines (v : Json) : List String := [v.toIndentedText]

def summary (e : Entry) : String :=
  "  " ++ e.id ++ "  " ++ e.name ++ " [" ++ e.stateLabel ++ "] " ++ Text.natText e.size ++
    " rows, " ++ Text.natText e.header.length ++ " columns"

/-! ### Columns of text -/

/-- A text with spaces in front, up to a width in characters. -/
def alignRight (width : Nat) (text : String) : String :=
  String.ofList (List.replicate (width - text.length) ' ') ++ text

/-- A text with spaces behind it, up to a width in characters. -/
def alignLeft (width : Nat) (text : String) : String :=
  text ++ String.ofList (List.replicate (width - text.length) ' ')

def columnLine (origin index title kind decimals role : String) : String :=
  "  " ++ alignRight 6 origin ++ " " ++ alignRight 6 index ++ "  " ++ alignLeft 24 title ++ " " ++
    alignLeft 9 kind ++ " " ++ alignRight 8 decimals ++ "  " ++ role

def lineOfColumn (c : Column) : String :=
  columnLine (Text.natText c.origin) (Text.natText c.index) c.title c.kind.label
    (Text.intText c.decimals.toInt) (if c.isOutput then "output" else "input")

/-! ### The reports of the commands -/

/-- The report on a document that was read. -/
def ingestLines (source : String) (entries : List Entry) : List String :=
  if entries.isEmpty then ["No sheets found in " ++ source]
  else
    ("Ingested " ++ counted entries.length "sheet" "sheets") :: entries.map summary ++
      ["", "Inspect with " ++ programName ++ " show <ID>, then approve with " ++ programName ++
        " approve <ID> --name <NAME> --column origin:index."]

/-- The pointer to the next page, if the page is full. -/
def nextPageLines (entries : List Entry) (limit : Int) : List String :=
  match entries.getLast? with
  | some last =>
    if (entries.length : Int) = limit then
      ["", "Next page: " ++ programName ++ " list --start-after " ++ last.id ++ " --limit " ++
        Text.intText limit]
    else []
  | none => []

def listLines (entries : List Entry) (limit : Int) : List String :=
  if entries.isEmpty then ["No approved datasets."]
  else entries.map summary ++ nextPageLines entries limit

def approveLines (e : Entry) : List String := ["Approved", summary e]

/-- The report on an entry that was archived. -/
def archiveLines (e : Entry) (months : Nat) : List String :=
  ["Archived " ++ e.name ++ " (" ++ e.id ++ ")",
    "It will be removed by the first sweep after " ++ counted months "month" "months" ++ "."]

def sweepLines (r : SweepReport) : List String :=
  ("Removed " ++ Text.natText r.removed.length ++ " expired " ++
    (if r.removed.length = 1 then "dataset" else "datasets")) ::
  r.removed.map (fun id => "  " ++ id) ++
  (if r.isClean then []
    else ("Warning: " ++ Text.natText r.failed.length ++ " could not be removed:") ::
      r.failed.map fun id => "  " ++ id)

def provenanceName : Provenance → String
  | .worksheet => "GoogleWorksheet"
  | .uploadedFile => "UploadedFile"

/-- The line about a time, if there is one. -/
def timeLine (label : String) (time : Option Instant) : List String :=
  (time.map fun t => label ++ t.toReadableText).toList

/-- The lines about the first rows, if there are any. -/
def exampleLines (rows : List Row) : List String :=
  if rows.isEmpty then []
  else "" :: "Examples:" :: rows.map fun row => "  " ++ " | ".intercalate (row.map Cell.display)

def inspectLines (e : Entry) : List String :=
  [e.name ++ " " ++ e.id ++ " [" ++ e.stateLabel ++ "]",
    "  Rows:    " ++ Text.natText e.size,
    "  Source:  " ++ e.sourceId ++ " (" ++ provenanceName e.provenance ++ ")",
    "  Owner:   " ++ e.userId] ++
  timeLine "  Created: " e.created ++ timeLine "  Archived: " e.archived ++
  ["", "Columns:", columnLine "origin" "index" "title" "type" "decimals" "role"] ++
  e.header.map lineOfColumn ++ exampleLines e.examples

/-! ### The log -/

def levelTag : LogLevel → String
  | .debug => "debug"
  | .info => "info"
  | .warning => "warn"
  | .error => "error"

def weight : LogLevel → Nat
  | .debug => 0
  | .info => 1
  | .warning => 2
  | .error => 3

def threshold (g : Globals) : LogLevel :=
  if g.verbose then .debug else if g.quiet then .warning else .info

/-- The lines of the log that are printed. -/
def logLines (g : Globals) (log : List LogLine) : List String :=
  (log.filter fun line => weight (threshold g) ≤ weight line.level).map fun line =>
    levelTag line.level ++ " " ++ line.text

def failureLine (f : Failure) : String := "Error [" ++ f.reason ++ "]: " ++ f.message

end GridCatalog.CommandLine
