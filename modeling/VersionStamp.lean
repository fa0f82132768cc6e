import VersionStamp.Bump
import VersionStamp.Fault
import VersionStamp.Log.Style
import VersionStamp.Report
import VersionStamp.Store
import VersionStamp.Toml.Document
import VersionStamp.Main
import VersionStamp.Tree
import VersionStamp.Proofs.Except
import VersionStamp.Proofs.Header.Reading
import VersionStamp.Proofs.Text.Lines
import VersionStamp.Proofs.Header.RoundTrip
import VersionStamp.Proofs.Bump.Sequence
import VersionStamp.Proofs.Files.Laws
import VersionStamp.Proofs.Files.Tree
import VersionStamp.Proofs.Store.Access
import VersionStamp.Proofs.Config.Resolution
import VersionStamp.Proofs.Store.RoundTrip
import VersionStamp.Proofs.Bump.Effect
import VersionStamp.Proofs.Session.Update
import VersionStamp.Proofs.Session.Unconfigured
import VersionStamp.Proofs.Session.History
import VersionStamp.Proofs.Bump.Recorder
import VersionStamp.Proofs.Version.Release
import VersionStamp.Proofs.Bump.Order
import VersionStamp.Proofs.Files.Frame
import VersionStamp.Proofs.Session.Course
import VersionStamp.Proofs.Session.RequiredText
import VersionStamp.Proofs.Session.Gating
import VersionStamp.Proofs.Session.Frame
import VersionStamp.Proofs.Program.Frame
import VersionStamp.Proofs.Version.Order
import VersionStamp.Proofs.Text.Spelling
import VersionStamp.Proofs.Header.Grammar
import VersionStamp.Proofs.Path.Ancestors
import VersionStamp.Proofs.Files.Absolute
import VersionStamp.Proofs.Config.Search
import VersionStamp.Proofs.Config.Project
import VersionStamp.Proofs.Program.Place
import VersionStamp.Proofs.Command.Reading
import VersionStamp.Proofs.Log.Dress
import VersionStamp.Proofs.Program.Log
import VersionStamp.Proofs.Session.Quiet
import VersionStamp.Proofs.Text.Cutting
import VersionStamp.Proofs.Version.Grammar
import VersionStamp.Proofs.Version.RoundTrip
import VersionStamp.Proofs.Session.ReportedTag
import VersionStamp.Proofs.Header.Faults
import VersionStamp.Proofs.Store.Malformed
import VersionStamp.Proofs.Json.Reading
import VersionStamp.Proofs.Json.Report
import VersionStamp.Proofs.Text.LineEnds
import VersionStamp.Proofs.Store.LineEnds
import VersionStamp.Proofs.Bump.Net
import VersionStamp.Proofs.Bump.Watched
import VersionStamp.Proofs.Session.Entries
import VersionStamp.Proofs.Program.EmptySuffix
import VersionStamp.Proofs.Path.Joining
import VersionStamp.Proofs.Path.Steps
import VersionStamp.Proofs.Files.Joined
import VersionStamp.Proofs.Config.Nearest
