import RitualGate.Archive.Card
import RitualGate.Archive.File
import RitualGate.Archive.Relevance
import RitualGate.Archive.Resolve
import RitualGate.Archive.Shelf
import RitualGate.Archive.Store
import RitualGate.Archive.Table
import RitualGate.Audit.Chain
import RitualGate.Audit.Log
import RitualGate.Audit.Record
import RitualGate.Audit.Trail
import RitualGate.Bandwidth
import RitualGate.Command.Arguments
import RitualGate.Command.Audit
import RitualGate.Command.Create
import RitualGate.Command.Program
import RitualGate.Command.Project
import RitualGate.Command.Report
import RitualGate.Command.Run
import RitualGate.Config.Basic
import RitualGate.Config.Codec
import RitualGate.Config.Load
import RitualGate.Data.Decode
import RitualGate.Data.Json.Printer
import RitualGate.Data.Json.Reader
import RitualGate.Data.Value
import RitualGate.Data.Yaml
import RitualGate.Error
import RitualGate.Failure
import RitualGate.Gate
import RitualGate.Host.Basic
import RitualGate.Host.Clock
import RitualGate.Host.FileTree
import RitualGate.Host.IoError
import RitualGate.Host.World
import RitualGate.Main
import RitualGate.Path
import RitualGate.Project.Basic
import RitualGate.Project.Layout
import RitualGate.Project.Settings
import RitualGate.Proofs.ArchiveFile
import RitualGate.Proofs.ArchiveUse
import RitualGate.Proofs.AuditTrail
import RitualGate.Proofs.Budget
import RitualGate.Proofs.Bytes
import RitualGate.Proofs.Canonical
import RitualGate.Proofs.Chain
import RitualGate.Proofs.ChainVerdict
import RitualGate.Proofs.Containment
import RitualGate.Proofs.Derivation
import RitualGate.Proofs.ErrorPlace
import RitualGate.Proofs.Evaluation
import RitualGate.Proofs.FileTree
import RitualGate.Proofs.GateSafety
import RitualGate.Proofs.Grammar
import RitualGate.Proofs.Json
import RitualGate.Proofs.JsonExtent
import RitualGate.Proofs.Layout
import RitualGate.Proofs.LayoutFree
import RitualGate.Proofs.Log
import RitualGate.Proofs.LogFile
import RitualGate.Proofs.LogFormat
import RitualGate.Proofs.Migration
import RitualGate.Proofs.PairEffects
import RitualGate.Proofs.PairOrder
import RitualGate.Proofs.Persistence
import RitualGate.Proofs.Personas
import RitualGate.Proofs.Program
import RitualGate.Proofs.ProgramRun
import RitualGate.Proofs.ProjectLog
import RitualGate.Proofs.Ranking
import RitualGate.Proofs.Rejection
import RitualGate.Proofs.Reopening
import RitualGate.Proofs.Replay
import RitualGate.Proofs.Resolution
import RitualGate.Proofs.ResumedLog
import RitualGate.Proofs.RoundTrip
import RitualGate.Proofs.Routing
import RitualGate.Proofs.Run
import RitualGate.Proofs.Settings
import RitualGate.Proofs.Severity
import RitualGate.Proofs.Spelling
import RitualGate.Proofs.StatementData
import RitualGate.Proofs.StoredPaths
import RitualGate.Proofs.TamperEvidence
import RitualGate.Proofs.Text
import RitualGate.Proofs.Vocabulary
import RitualGate.Proofs.WellFormed
import RitualGate.Session.Basic
import RitualGate.Session.Evaluate
import RitualGate.Session.Process
import RitualGate.Sha256
import RitualGate.Statement.Args
import RitualGate.Statement.Basic
import RitualGate.Statement.Canonical
import RitualGate.Statement.Codec
import RitualGate.Statement.Error
import RitualGate.Statement.Outline
import RitualGate.Statement.Reader
import RitualGate.Statement.Token
import RitualGate.Statement.View
import RitualGate.Text.Alphanumeric
import RitualGate.Text.Blank
import RitualGate.Text.Cut
import RitualGate.Text.Lowercase
import RitualGate.Text.Numeral
import RitualGate.Text.Utf8
import RitualGate.Vocabulary.Anchor
import RitualGate.Vocabulary.CardRef
import RitualGate.Vocabulary.Error
import RitualGate.Vocabulary.Intent
import RitualGate.Vocabulary.Keyword
import RitualGate.Vocabulary.Level
import RitualGate.Vocabulary.Persona
import RitualGate.Voice
import RitualGate.Proofs.ArchiveOpening
