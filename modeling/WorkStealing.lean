import WorkStealing.Cluster.Network
import WorkStealing.Cluster.Script
import WorkStealing.Cluster.SocketLink
import WorkStealing.Container
import WorkStealing.Main
import WorkStealing.Proofs.Cluster.Conservation
import WorkStealing.Proofs.Cluster.Containment
import WorkStealing.Proofs.Cluster.Requests
import WorkStealing.Proofs.Pool.Affinity
import WorkStealing.Proofs.Pool.Conservation
import WorkStealing.Proofs.Queue.Scan
import WorkStealing.Proofs.Wire.RoundTrip
import WorkStealing.Record.Cluster
import WorkStealing.Record.Field
import WorkStealing.Record.Schema
import WorkStealing.Proofs.Pool.References
import WorkStealing.Proofs.Driver.References
import WorkStealing.Proofs.Runlevel.Journal
import WorkStealing.Proofs.Runlevel.Nesting
import WorkStealing.Proofs.Driver.Stopping
import WorkStealing.Proofs.Driver.Parking
import WorkStealing.Proofs.Driver.Wakeups
import WorkStealing.Proofs.Cluster.Undelivered
import WorkStealing.Proofs.Driver.Refusals
import WorkStealing.Proofs.Queue.OneLevel
import WorkStealing.Proofs.Cluster.OpenExchanges
import WorkStealing.Proofs.Cluster.Quiescence
import WorkStealing.Proofs.Cluster.Circling
import WorkStealing.Proofs.Pool.SearchOrder
import WorkStealing.Proofs.Pool.Placement
import WorkStealing.Proofs.Cluster.Answers
import WorkStealing.Proofs.Cluster.FailedExchanges
import WorkStealing.Proofs.Cluster.Selection
import WorkStealing.Proofs.Cluster.Pace
import WorkStealing.Proofs.Cluster.Incidents
import WorkStealing.Proofs.Cluster.Closing
import WorkStealing.Proofs.Driver.HighWater
import WorkStealing.Proofs.Queue.Lifecycle
import WorkStealing.Proofs.Pool.Counts
import WorkStealing.Proofs.Pool.Repelling
import WorkStealing.Proofs.Driver.Tally
import WorkStealing.Proofs.Command.Seeding
import WorkStealing.Proofs.Queue.TwoLists
import WorkStealing.Proofs.Runlevel.Current
import WorkStealing.Proofs.Text.Endpoint
import WorkStealing.Proofs.Command.StagedSeeds
import WorkStealing.Proofs.Driver.PendingWakes
import WorkStealing.Proofs.Wire.Frames
import WorkStealing.Proofs.Cluster.LocalNodes
import WorkStealing.Proofs.Queue.QueueRow
import WorkStealing.Proofs.Store.Indices
