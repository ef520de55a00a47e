import ThermalLabel.Api.Service
import ThermalLabel.CommandLine.Folder
import ThermalLabel.Decimal.Exact
import ThermalLabel.Editor.Output
import ThermalLabel.Editor.Workspace
import ThermalLabel.Main
import ThermalLabel.Proofs.Api.Sessions
import ThermalLabel.Proofs.CommandLine.Assignments
import ThermalLabel.Proofs.Document.Repair
import ThermalLabel.Proofs.Document.Template
import ThermalLabel.Proofs.Editor.Abandoned
import ThermalLabel.Proofs.Editor.Alignment
import ThermalLabel.Proofs.Editor.Bounds
import ThermalLabel.Proofs.Editor.Changes
import ThermalLabel.Proofs.Editor.Clicks
import ThermalLabel.Proofs.Editor.Distribution
import ThermalLabel.Proofs.Editor.Frames
import ThermalLabel.Proofs.Editor.GroupDrag
import ThermalLabel.Proofs.Editor.Identity
import ThermalLabel.Proofs.Editor.Marquee
import ThermalLabel.Proofs.Editor.OneAxis
import ThermalLabel.Proofs.Editor.Refusals
import ThermalLabel.Proofs.Editor.Restart
import ThermalLabel.Proofs.Editor.Saves
import ThermalLabel.Proofs.Editor.Selected
import ThermalLabel.Proofs.Editor.Snapping
import ThermalLabel.Proofs.Editor.UndoRedo
import ThermalLabel.Proofs.Element.DrawingOrder
import ThermalLabel.Proofs.Element.Kept
import ThermalLabel.Proofs.Job.EscPos.Listing
import ThermalLabel.Proofs.Job.EscPos.Stream
import ThermalLabel.Proofs.Job.Outlines
import ThermalLabel.Proofs.Job.Paths
import ThermalLabel.Proofs.Job.Range
import ThermalLabel.Proofs.Job.Symbols
import ThermalLabel.Proofs.Job.Tspl
import ThermalLabel.Proofs.Job.Tspl.Strings
import ThermalLabel.Proofs.Job.Zpl
import ThermalLabel.Proofs.Session.Proper
import ThermalLabel.Proofs.Session.Writer
import ThermalLabel.Proofs.Transport
import ThermalLabel.Proofs.Variables
import ThermalLabel.Scalar.Rational
