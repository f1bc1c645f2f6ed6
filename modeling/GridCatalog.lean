import GridCatalog.Main
import GridCatalog.Source.Memory
import GridCatalog.Store.Memory
import GridCatalog.Proofs.Event
import GridCatalog.Proofs.References
import GridCatalog.Proofs.GridRows
import GridCatalog.Proofs.GridColumns
import GridCatalog.Proofs.Shape
import GridCatalog.Proofs.RuleChoice
import GridCatalog.Proofs.InferredCells
import GridCatalog.Proofs.Strictness
import GridCatalog.Proofs.Demotion
import GridCatalog.Proofs.Origins
import GridCatalog.Proofs.Preview
import GridCatalog.Proofs.Durability
import GridCatalog.Proofs.Ingest
import GridCatalog.Proofs.Disk
import GridCatalog.Proofs.DirectoryIngest
import GridCatalog.Proofs.JsonDirectory
import GridCatalog.Proofs.Query
import GridCatalog.Proofs.Interchange
import GridCatalog.Proofs.Doubles
import GridCatalog.Proofs.JsonStrings
import GridCatalog.Proofs.JsonText
import GridCatalog.Proofs.JsonNumbers
import GridCatalog.Proofs.Faithful
import GridCatalog.Proofs.RecordForms
import GridCatalog.Proofs.RoundTrip
import GridCatalog.Proofs.Listing
import GridCatalog.Proofs.Archival
import GridCatalog.Proofs.Paging
import GridCatalog.Proofs.Calendar
import GridCatalog.Proofs.Expiry
import GridCatalog.Proofs.LongerRetention
import GridCatalog.Proofs.Ties
import GridCatalog.Proofs.Additions
import GridCatalog.Proofs.Changes
import GridCatalog.Proofs.LibraryIngest
import GridCatalog.Proofs.NamedColumns
import GridCatalog.Proofs.Sweeping
import GridCatalog.Proofs.SweepReport
import GridCatalog.Proofs.DelimitedText
import GridCatalog.Proofs.DelimitedReader
import GridCatalog.Proofs.QuotedFiles
import GridCatalog.Proofs.Confinement
import GridCatalog.Proofs.Elementwise
import GridCatalog.Proofs.Continuity
import GridCatalog.Proofs.Winners
import GridCatalog.Proofs.Reapproval
import GridCatalog.Proofs.Composition
import GridCatalog.Proofs.RangeText
import GridCatalog.Proofs.RowPages
import GridCatalog.Proofs.IngestedRows
import GridCatalog.Proofs.Cutting
import GridCatalog.Proofs.ColumnSpecs
import GridCatalog.Proofs.Numerals
import GridCatalog.Proofs.LetterCase
import GridCatalog.Proofs.ColumnSpecText
import GridCatalog.Proofs.SavedFiles
import GridCatalog.Proofs.SettingsFiles
import GridCatalog.Proofs.Transpose
