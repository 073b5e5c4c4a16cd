import FaultPoints.Main
import FaultPoints.Metrics.Exposition
import FaultPoints.Proofs.Control.Arming
import FaultPoints.Proofs.Control.Routing
import FaultPoints.Proofs.Run.History
import FaultPoints.Proofs.Run.Observers
import FaultPoints.Proofs.Json.Spelling
import FaultPoints.Proofs.Json.Agreement
import FaultPoints.Proofs.Json.Members
import FaultPoints.Proofs.Control.Decoders
import FaultPoints.Proofs.Decimal.Range
import FaultPoints.Proofs.Json.Codec
import FaultPoints.Proofs.Fault.Documents
import FaultPoints.Proofs.Control.RoundTrip
import FaultPoints.Proofs.Text.Utf8
import FaultPoints.Proofs.Fault.Rearming
import FaultPoints.Proofs.Control.Transfer
import FaultPoints.Proofs.Settings.Reloading
import FaultPoints.Proofs.Node.Startup
import FaultPoints.Proofs.Metrics.Counters
import FaultPoints.Proofs.Metrics.Gauge
import FaultPoints.Proofs.Metrics.InFlight
import FaultPoints.Proofs.Run.Contention
import FaultPoints.Proofs.Node.LastWins
import FaultPoints.Proofs.Control.Removal
import FaultPoints.Proofs.Node.FailedBuild
import FaultPoints.Proofs.Heartbeat.Accounts
import FaultPoints.Proofs.Run.Expiry
import FaultPoints.Proofs.Settings.Bootstrap
import FaultPoints.Proofs.Settings.TextVariables
import FaultPoints.Proofs.Settings.FileFaults
import FaultPoints.Proofs.Node.Steps
import FaultPoints.Proofs.Node.Sharing
