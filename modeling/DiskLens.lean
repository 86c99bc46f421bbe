import DiskLens.Text.Lines
import DiskLens.Text.Quoted
import DiskLens.Text.Integer
import DiskLens.Text.Utf8
import DiskLens.Outline.ContentType
import DiskLens.Completion.Situation
import DiskLens.Json.Reader
import DiskLens.Json.Writer
import DiskLens.Json.Display
import DiskLens.Files.Tree
import DiskLens.Catalog.Load
import DiskLens.Completion.Cache
import DiskLens.Hover
import DiskLens.Service.Session
import DiskLens.Http.Server
import DiskLens.Cli.Run
import DiskLens.Main
import DiskLens.Proofs.Service.LifeCycle
import DiskLens.Proofs.Service.Isolation
import DiskLens.Proofs.Outline.Sections
import DiskLens.Proofs.Outline.Phases
import DiskLens.Proofs.Outline.RuleTables
import DiskLens.Proofs.Outline.Hooks
import DiskLens.Proofs.Outline.Trees
import DiskLens.Proofs.Outline.Growth
import DiskLens.Proofs.Catalog.Names
import DiskLens.Proofs.Hover.Names
import DiskLens.Proofs.Completion.Insertion
import DiskLens.Proofs.Catalog.Layouts
import DiskLens.Proofs.Catalog.Levels
import DiskLens.Proofs.Catalog.Fixpoint
import DiskLens.Proofs.Cli.Agreement
import DiskLens.Proofs.Completion.Counts
import DiskLens.Proofs.Http.Snapshot
import DiskLens.Proofs.Outline.BlockHeaders
import DiskLens.Proofs.Outline.Cancellation
import DiskLens.Proofs.Outline.Failures
import DiskLens.Proofs.Catalog.Records
import DiskLens.Proofs.Outline.LineEnds
import DiskLens.Proofs.Outline.Blocks
import DiskLens.Proofs.Outline.SystemLines
import DiskLens.Proofs.Service.CacheCounts
import DiskLens.Proofs.Outline.PhaseLines
