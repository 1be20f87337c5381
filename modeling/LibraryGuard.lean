import LibraryGuard.Config
import LibraryGuard.Dependency.Walk
import LibraryGuard.FileTree
import LibraryGuard.Guard
import LibraryGuard.Search.SearchList
import LibraryGuard.Search.Selection
import LibraryGuard.Program.Probe
import LibraryGuard.Shell.Reading
import LibraryGuard.Shell.Arithmetic
import LibraryGuard.Shell.Pattern
import LibraryGuard.Shell.Tools
import LibraryGuard.Shell.State
import LibraryGuard.Shell.Run
import LibraryGuard.Program.Workshop
import LibraryGuard.Arming
import LibraryGuard.CommandLine.Reply
import LibraryGuard.Elf.VersionImage
import LibraryGuard.Guard.Interleaving
import LibraryGuard.Guard.EventSource
import LibraryGuard.Main
import LibraryGuard.Proofs.Bytes
import LibraryGuard.Proofs.Except
import LibraryGuard.Proofs.Path.FileName
import LibraryGuard.Proofs.Path.Steps
import LibraryGuard.Proofs.FileTree
import LibraryGuard.Proofs.Text.Blank
import LibraryGuard.Proofs.Text.Search
import LibraryGuard.Proofs.Text.Replacement
import LibraryGuard.Proofs.Text.Utf8
import LibraryGuard.Proofs.Version.Order
import LibraryGuard.Proofs.Version.Grammar
import LibraryGuard.Proofs.Version.Text
import LibraryGuard.Proofs.Elf.DefinitionWalk
import LibraryGuard.Proofs.Elf.NewestVersion
import LibraryGuard.Proofs.Elf.MalformedNames
import LibraryGuard.Proofs.Elf.AnnouncedRecords
import LibraryGuard.Proofs.Elf.WrittenRecords
import LibraryGuard.Proofs.Elf.VersionImage
import LibraryGuard.Proofs.Dependency.Report
import LibraryGuard.Proofs.Dependency.Walk
import LibraryGuard.Proofs.Dependency.Lines
import LibraryGuard.Proofs.Dependency.Mapping
import LibraryGuard.Proofs.Guard.Interleaving
import LibraryGuard.Proofs.Guard.Run
import LibraryGuard.Proofs.Guard.Outcomes
import LibraryGuard.Proofs.Guard.Completion
import LibraryGuard.Proofs.Reconciliation
import LibraryGuard.Proofs.Reconciliation.Warnings
import LibraryGuard.Proofs.Reconciliation.MalformedNames
import LibraryGuard.Proofs.Search.Selection
import LibraryGuard.Proofs.Search.Redirection
import LibraryGuard.Proofs.Search.Agreement
import LibraryGuard.Proofs.Search.Expansion
import LibraryGuard.Proofs.Search.Origin
import LibraryGuard.Proofs.Search.SearchList
import LibraryGuard.Proofs.Program.Worker
import LibraryGuard.Proofs.Program.FirstLine
import LibraryGuard.Proofs.CommandLine.Replies
import LibraryGuard.Proofs.CommandLine.Arguments
import LibraryGuard.Proofs.CommandLine.Settings
import LibraryGuard.Proofs.Toml.Document
import LibraryGuard.Proofs.Config
import LibraryGuard.Proofs.Arming
import LibraryGuard.Proofs.Path.Naming
import LibraryGuard.Proofs.Version.Packed
import LibraryGuard.Proofs.Elf.TrailingBytes
import LibraryGuard.Proofs.Reconciliation.TrailingBytes
import LibraryGuard.Proofs.Search.Recognition
