import ReleaseStamp.Main
import ReleaseStamp.Proofs.Lockfile.Fields
import ReleaseStamp.Proofs.Lockfile.Runs
import ReleaseStamp.Proofs.Lockfile.Records
import ReleaseStamp.Proofs.Lockfile.Packages
import ReleaseStamp.Proofs.Lockfile.NameLines
import ReleaseStamp.Proofs.Files.Walks
import ReleaseStamp.Proofs.Files.Lookups
import ReleaseStamp.Proofs.Text.Lines
import ReleaseStamp.Proofs.Hook.Script
import ReleaseStamp.Proofs.Hook.LifeCycle
import ReleaseStamp.Proofs.Patcher
import ReleaseStamp.Proofs.Git.Index
import ReleaseStamp.Proofs.Git.IndexFormat
import ReleaseStamp.Proofs.Git.Staging
import ReleaseStamp.Proofs.Command
import ReleaseStamp.Proofs.Hook.Edits
import ReleaseStamp.Proofs.Hook.UserLines
import ReleaseStamp.Proofs.Patcher.Repetition
import ReleaseStamp.Proofs.Command.Show
import ReleaseStamp.Proofs.Command.Closed
import ReleaseStamp.Proofs.Settings.Paths
import ReleaseStamp.Proofs.Patcher.Race
import ReleaseStamp.Proofs.Patcher.Reports
import ReleaseStamp.Proofs.Files.Entries
import ReleaseStamp.Proofs.Files.Growth
import ReleaseStamp.Proofs.Files.Closed
import ReleaseStamp.Proofs.Files.Bases
import ReleaseStamp.Proofs.Hook.Blocks
import ReleaseStamp.Proofs.Hook.Forcing
import ReleaseStamp.Proofs.Hook.Restoring
import ReleaseStamp.Proofs.Hook.Detection
import ReleaseStamp.Proofs.Text.LineEnds
import ReleaseStamp.Proofs.Hook.Calls
import ReleaseStamp.Proofs.Hook.Frame
