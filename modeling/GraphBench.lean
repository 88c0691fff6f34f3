import GraphBench.Database.Memory
import GraphBench.Main
import GraphBench.Proofs.Driver.Crash
import GraphBench.Proofs.Driver.Replay
import GraphBench.Proofs.Record.Codec
import GraphBench.Proofs.Source.Crash
import GraphBench.Proofs.Source.Replay
import GraphBench.Proofs.Factory.Continuation
import GraphBench.Proofs.Source.Continuation
import GraphBench.Proofs.Factory.Labels
import GraphBench.Proofs.Source.Refusal
import GraphBench.Proofs.Disk.Replaced
import GraphBench.Proofs.Source.Damage
import GraphBench.Proofs.Source.Acceptance
import GraphBench.Proofs.Driver.Databases
import GraphBench.Proofs.Driver.Complete
import GraphBench.Proofs.Source.Observation
import GraphBench.Proofs.Driver.Failure
import GraphBench.Proofs.Driver.Exhaustion
import GraphBench.Proofs.Source.Issued
import GraphBench.Proofs.Source.Visits
import GraphBench.Proofs.Source.Density
import GraphBench.Proofs.Driver.Density
import GraphBench.Proofs.Database.Mirror
import GraphBench.Proofs.Source.Endpoints
import GraphBench.Proofs.Disk.Directories
import GraphBench.Proofs.Driver.LoadPhase
import GraphBench.Proofs.Driver.Mirror
import GraphBench.Proofs.Driver.Statistics
import GraphBench.Proofs.Trace.Exhaustion
import GraphBench.Proofs.Trace.Lines
import GraphBench.Proofs.Trace.Order
import GraphBench.Proofs.Trace.Choices
import GraphBench.Proofs.Dataset.Renewal
import GraphBench.Proofs.Bench.Handles
import GraphBench.Proofs.Bench.Openings
import GraphBench.Proofs.Bench.AppendOnly
import GraphBench.Proofs.Dataset.Spared
import GraphBench.Proofs.CommandLine.Jobs
import GraphBench.Proofs.CommandLine.Agreement
import GraphBench.Proofs.Factory.Pattern
import GraphBench.Proofs.Factory.Construction
import GraphBench.Proofs.Json.Cut
import GraphBench.Proofs.Record.Torn
import GraphBench.Proofs.Source.Placement
import GraphBench.Proofs.Source.Salvage
import GraphBench.Proofs.Source.Takeover
import GraphBench.Proofs.Digest.Stream
import GraphBench.Proofs.Dataset.Resolution
import GraphBench.Proofs.Counter.Ascent
import GraphBench.Proofs.Database.Ordered
import GraphBench.Proofs.Database.History
import GraphBench.Proofs.Source.Fixed
import GraphBench.Proofs.Json.Spread
import GraphBench.Proofs.Config.File
