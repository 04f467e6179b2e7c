import ProjectLayout.Main
import ProjectLayout.Proofs.Check.RequiredFile
import ProjectLayout.Proofs.CommandLine.Check
import ProjectLayout.Proofs.Config.Merge
import ProjectLayout.Proofs.Check.Severity
import ProjectLayout.Proofs.Session
import ProjectLayout.Proofs.Check.Narrowing
import ProjectLayout.Proofs.Disk.Ancestors
import ProjectLayout.Proofs.Config.Discovery
import ProjectLayout.Proofs.Config.Section
import ProjectLayout.Proofs.Check.Folder
import ProjectLayout.Proofs.Scan.Pruning
import ProjectLayout.Proofs.Glob.Segments
import ProjectLayout.Proofs.Report.RoundTrip
import ProjectLayout.Proofs.Config.Default
import ProjectLayout.Proofs.Naming.Families
import ProjectLayout.Proofs.Naming.Conforming
import ProjectLayout.Proofs.Report.Colors
import ProjectLayout.Proofs.Check.FileNaming
import ProjectLayout.Proofs.Check.FolderBlocks
import ProjectLayout.Proofs.Check.Extension
import ProjectLayout.Proofs.Check.Growth
import ProjectLayout.Proofs.Glob.Disjunction
import ProjectLayout.Proofs.Config.Layers
import ProjectLayout.Proofs.Config.KeyOrder
import ProjectLayout.Proofs.Config.RuleOrder
import ProjectLayout.Proofs.Naming.Splitting
import ProjectLayout.Proofs.Config.Problem
import ProjectLayout.Proofs.CommandLine.Init
