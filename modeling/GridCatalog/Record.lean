import GridCatalog.Approval
import GridCatalog.Calendar.Rfc3339
import GridCatalog.Entry
import GridCatalog.Json.Record

/-! The JSON forms of datasets, entries and approvals.

    Options without a value are left out. An empty cell does not show its kind, so a dataset or an
    entry that is read gives its empty cells the kinds of its columns. -/

namespace GridCatalog

open Json (Record)

/-! ### Words -/

def CellKind.word : CellKind → String
  | .numbers => "NUMBER_ARRAY"
  | .texts => "STRING_ARRAY"

def CellKind.ofWord? : String → Option CellKind
  | "NUMBER_ARRAY" => some .numbers
  | "STRING_ARRAY" => some .texts
  | _ => none

def Provenance.word : Provenance → String
  | .worksheet => "GOOGLE_WORKSHEET"
  | .uploadedFile => "UPLOADED_FILE"

def Provenance.ofWord? : String → Option Provenance
  | "GOOGLE_WORKSHEET" => some .worksheet
  | "UPLOADED_FILE" => some .uploadedFile
  | _ => none

def Purpose.word : Purpose → String
  | .training => "TRAINING"
  | .validation => "VALIDATION"
  | .prediction => "PREDICTION"

def Purpose.ofWord? : String → Option Purpose
  | "TRAINING" => some .training
  | "VALIDATION" => some .validation
  | "PREDICTION" => some .prediction
  | _ => none

def CellKind.ofJson? (v : Json) : Option CellKind := v.word?.bind ofWord?

def Provenance.ofJson? (v : Json) : Option Provenance := v.word?.bind ofWord?

def Purpose.ofJson? (v : Json) : Option Purpose := v.word?.bind ofWord?

def Instant.ofJson? (v : Json) : Option Instant := v.text?.bind ofText?

/-! ### Cells and rows -/

def Cell.toJson : Cell → Json
  | numbers values => .array (values.map Json.ofFloat)
  | texts values => .array (values.map Json.ofString)

/-- Reads a cell: numbers if all items are numbers, so that an empty one has numbers, else texts. -/
def Cell.ofJson? (v : Json) : Option Cell :=
  match Json.list? Json.float? v with
  | some values => some (numbers values)
  | none => (Json.list? Json.text? v).map texts

def rowsToJson (rows : List Row) : Json := .array (rows.map fun row => .array (row.map Cell.toJson))

def rowsOfJson? (v : Json) : Option (List Row) := Json.list? (Json.list? Cell.ofJson?) v

/-! ### Columns -/

/-- The order of the two positions of a column in its JSON form. -/
inductive ColumnLayout where
  /-- The origin first, as in datasets. -/
  | originFirst
  /-- The index first, as in entries. -/
  | indexFirst
deriving DecidableEq, Repr

/-- The field names of a column in order. -/
def ColumnLayout.fields : ColumnLayout → List String
  | .originFirst => ["title", "origin_index", "index", "col_type", "decimals", "is_output"]
  | .indexFirst => ["title", "index", "origin_index", "col_type", "decimals", "is_output"]

/-- The two positions of a column in order. -/
def ColumnLayout.positions (layout : ColumnLayout) (c : Column) : List (String × Json) :=
  let origin := ("origin_index", Json.ofNat c.origin)
  let index := ("index", Json.ofNat c.index)
  match layout with
  | .originFirst => [origin, index]
  | .indexFirst => [index, origin]

def decimalsOfJson? (v : Json) : Option Int8 :=
  (Json.int? (-Text.intBound8) Text.intBound8 v).map Int8.ofInt

def Column.toJson (layout : ColumnLayout) (c : Column) : Json :=
  .ofMembers (("title", .ofString c.title) :: layout.positions c ++
    [("col_type", .ofString c.kind.word), ("decimals", .ofInt c.decimals.toInt),
      ("is_output", .bool c.isOutput)])

def Column.ofJson? (layout : ColumnLayout) (v : Json) : Option Column := do
  let r ← v.record? layout.fields
  return {
    title := ← r.required "title" Json.text?
    origin := ← r.required "origin_index" Json.nat?
    index := ← r.required "index" Json.nat?
    kind := ← r.required "col_type" CellKind.ofJson?
    decimals := ← r.defaulted "decimals" 0 decimalsOfJson?
    isOutput := ← r.defaulted "is_output" false Json.bool? }

/-! ### Datasets and entries -/

/-- The member of an option, if it has a value. -/
def optionMember {α : Type} (name : String) (write : α → Json) : Option α → List (String × Json)
  | none => []
  | some a => [(name, write a)]

/-- The member of a time, if there is one. -/
def timeMember (name : String) (time : Option Instant) : List (String × Json) :=
  optionMember name (fun t => .ofString t.toText) time

/-- The field names of a dataset in order. -/
def Dataset.fields : List String :=
  ["id", "name", "metadata_id", "user_id", "header", "body", "created_time", "updated_time"]

def Dataset.toJson (d : Dataset) : Json :=
  .ofMembers ([("id", .ofString d.id), ("name", .ofString d.name)] ++
    optionMember "metadata_id" Json.ofString d.entryId ++
    [("user_id", .ofString d.userId),
      ("header", .array (d.header.map (Column.toJson .originFirst))),
      ("body", rowsToJson d.body)] ++
    timeMember "created_time" d.created ++ timeMember "updated_time" d.updated)

def Dataset.ofJson? (v : Json) : Option Dataset := do
  let r ← v.record? fields
  let header ← r.required "header" (Json.list? (Column.ofJson? .originFirst))
  let body ← r.required "body" rowsOfJson?
  return {
    id := ← r.defaulted "id" "" Json.text?
    name := ← r.required "name" Json.text?
    entryId := ← r.optional "metadata_id" Json.text?
    userId := ← r.required "user_id" Json.text?
    header
    body := body.map (retypeRow (header.map Column.kind))
    created := ← r.optional "created_time" Instant.ofJson?
    updated := ← r.optional "updated_time" Instant.ofJson? }

/-- The field names of an entry in order. -/
def Entry.fields : List String :=
  ["id", "name", "user_id", "header", "examples", "size", "process_type", "dataset_reference",
    "source_type", "source_reference", "is_temporary", "is_archived", "created_time",
    "updated_time", "last_sync_time", "archived_time"]

def Entry.toJson (e : Entry) : Json :=
  .ofMembers ([("id", .ofString e.id), ("name", .ofString e.name), ("user_id", .ofString e.userId),
      ("header", .array (e.header.map (Column.toJson .indexFirst))),
      ("examples", rowsToJson e.examples), ("size", .ofNat e.size),
      ("process_type", .ofString e.purpose.word), ("dataset_reference", .ofString e.datasetId),
      ("source_type", .ofString e.provenance.word), ("source_reference", .ofString e.sourceId),
      ("is_temporary", .bool e.isTemporary), ("is_archived", .bool e.isArchived)] ++
    timeMember "created_time" e.created ++ timeMember "updated_time" e.updated ++
    timeMember "last_sync_time" e.synced ++ timeMember "archived_time" e.archived)

def Entry.ofJson? (v : Json) : Option Entry := do
  let r ← v.record? fields
  let header ← r.required "header" (Json.list? (Column.ofJson? .indexFirst))
  let examples ← r.required "examples" rowsOfJson?
  return {
    id := ← r.required "id" Json.text?
    name := ← r.required "name" Json.text?
    userId := ← r.required "user_id" Json.text?
    header
    examples := examples.map (retypeRow (header.map Column.kind))
    size := ← r.required "size" Json.nat?
    purpose := ← r.defaulted "process_type" .training Purpose.ofJson?
    datasetId := ← r.required "dataset_reference" Json.text?
    provenance := ← r.required "source_type" Provenance.ofJson?
    sourceId := ← r.required "source_reference" Json.text?
    isTemporary := ← r.required "is_temporary" Json.bool?
    isArchived := ← r.required "is_archived" Json.bool?
    created := ← r.optional "created_time" Instant.ofJson?
    updated := ← r.optional "updated_time" Instant.ofJson?
    synced := ← r.optional "last_sync_time" Instant.ofJson?
    archived := ← r.optional "archived_time" Instant.ofJson? }

/-! ### Approvals -/

/-- The field names of a selection in order. -/
def Selection.fields : List String := ["origin_index", "index", "title", "decimals", "is_output"]

def Selection.toJson (s : Selection) : Json :=
  .ofMembers [("origin_index", .ofNat s.column), ("index", .ofNat s.index),
    ("title", .ofString s.title), ("decimals", .ofInt s.decimals.toInt),
    ("is_output", .bool s.isOutput)]

def Selection.ofJson? (v : Json) : Option Selection := do
  let r ← v.record? fields
  return {
    column := ← r.required "origin_index" Json.nat?
    index := ← r.required "index" Json.nat?
    title := ← r.required "title" Json.text?
    decimals := ← r.defaulted "decimals" 0 decimalsOfJson?
    isOutput := ← r.defaulted "is_output" false Json.bool? }

def Approval.toJson (a : Approval) : Json :=
  .ofMembers [("name", .ofString a.name), ("header", .array (a.selections.map Selection.toJson))]

def Approval.ofJson? (v : Json) : Option Approval := do
  let r ← v.record? ["name", "header"]
  return {
    name := ← r.required "name" Json.text?
    selections := ← r.required "header" (Json.list? Selection.ofJson?) }

end GridCatalog
