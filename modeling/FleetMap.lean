import FleetMap.Dashboard.Command
import FleetMap.Main
import FleetMap.Proofs.Hub.Change
import FleetMap.Proofs.Hub.Law
import FleetMap.Proofs.Hub.Lawful
import FleetMap.Proofs.Hub.Obedience
import FleetMap.Proofs.Hub.Depth
import FleetMap.Proofs.Hub.FanOut
import FleetMap.Proofs.Hub.Wiring
import FleetMap.Proofs.Number.Double
import FleetMap.Proofs.Number.Rounding
import FleetMap.Proofs.Projection
import FleetMap.Proofs.SameSprites
import FleetMap.Proofs.Hub.Freshness
import FleetMap.Proofs.Intake.Settings
import FleetMap.Proofs.Settings.Draft
import FleetMap.Proofs.Hub.Listening
import FleetMap.Proofs.Hub.Playback
import FleetMap.Proofs.Hub.Rendering
import FleetMap.Proofs.Replay
import FleetMap.Proofs.Table
import FleetMap.Proofs.Intake.Device
import FleetMap.Proofs.Hub.Soundness
import FleetMap.Proofs.Text.Utf8
import FleetMap.Proofs.Json.RoundTrip
import FleetMap.Proofs.Number.Shortest
import FleetMap.Proofs.Files.Library
import FleetMap.Proofs.Intake.Patch
import FleetMap.Proofs.Hub.Patching
import FleetMap.Proofs.Dashboard.Informed
import FleetMap.Proofs.Dashboard.Touch
import FleetMap.Proofs.Dashboard.Agreement
import FleetMap.Proofs.Hub.Rest
import FleetMap.Proofs.Hub.Record
import FleetMap.Proofs.Hub.Chronicle
import FleetMap.Proofs.Hub.Editions
import FleetMap.Proofs.Roster
import FleetMap.Proofs.Intake.Footprint
import FleetMap.Proofs.Hub.Independence
import FleetMap.Proofs.Hub.Joining
import FleetMap.Proofs.Hub.Enrollment
import FleetMap.Proofs.Hub.Redrawing
import FleetMap.Proofs.Hub.Triggers
import FleetMap.Proofs.Hub.Players
import FleetMap.Proofs.Hub.Rewinding
import FleetMap.Proofs.Text.Trim
import FleetMap.Proofs.Number.Typed
import FleetMap.Proofs.Settings.FieldText
import FleetMap.Proofs.Dashboard.Containment
import FleetMap.Proofs.Files.Reception
import FleetMap.Proofs.Markup
import FleetMap.Proofs.Settings.Group
import FleetMap.Proofs.Number.HalfUp
