import ExportTables.Files.World
import ExportTables.Header.Json
import ExportTables.Main
import ExportTables.Proofs.Header.OnePass
import ExportTables.Proofs.Header.LineComments
import ExportTables.Proofs.Header.Readings
import ExportTables.Proofs.Header.MarkedDeclarations
import ExportTables.Proofs.Header.Scan
import ExportTables.Proofs.Files.Paths
import ExportTables.Proofs.Files.Walks
import ExportTables.Proofs.Files.Entries
import ExportTables.Proofs.Files.Directories
import ExportTables.Proofs.Files.Temporary
import ExportTables.Proofs.Files.Replacing
import ExportTables.Proofs.Generate
import ExportTables.Proofs.Artifact
import ExportTables.Proofs.Files.Reading
import ExportTables.Proofs.Check
import ExportTables.Proofs.Toml.Quoted
import ExportTables.Proofs.Config.Reading
import ExportTables.Proofs.Files.Writing
import ExportTables.Proofs.Config.File
import ExportTables.Proofs.Header.Joining
import ExportTables.Proofs.Json.Layout
import ExportTables.Proofs.Files.Growing
import ExportTables.Proofs.Files.Making
import ExportTables.Proofs.Files.OneByOne
import ExportTables.Proofs.Stale
import ExportTables.Proofs.Header.NormalForm
import ExportTables.Proofs.Header.BlockComments
import ExportTables.Proofs.Header.DeclarationLines
import ExportTables.Proofs.Manifest
import ExportTables.Proofs.Config.Defaults
import ExportTables.Proofs.Path.Relative
import ExportTables.Proofs.Duplicates
import ExportTables.Proofs.CommandLine.Run
