import Magellan.Cluster
import Magellan.Migration.CommitPoint
import Magellan.Migration.Reconcile
import Magellan.Migration.DestinationCrash
import Magellan.Migration.Failure
import Magellan.Migration.Retry
import Magellan.Migration.Absorption
import Magellan.Migration.CommittedClaims
import Magellan.Migration.Agreement
import Magellan.Migration.Confinement
import Magellan.Migration.Reservations
import Magellan.State.Gossip
import Magellan.State.Shape
import Magellan.State.LostUpdate
import Magellan.State.Delivery
import Magellan.Bidding.Lifecycle
import Magellan.Bidding.Leases
import Magellan.Bidding.Fairness
import Magellan.Bidding.Credits
import Magellan.Daemon.Permanence
import Magellan.Daemon.Fence
import Magellan.Daemon.Restart
import Magellan.Scheduler.BidAndMigrate
import Magellan.Submission.Repair
import Magellan.Runtime.Ledger
import Magellan.Artifacts.Addressing
import Magellan.Artifacts.Healing
import Magellan.Artifacts.Isolation
import Magellan.Artifacts.Prefetched
import Magellan.Workloads.TornCheckpoint
import Magellan.Runtime.Discovery
import Magellan.Runtime.Resume
import Magellan.Runtime.NewestStep
import Magellan.Runtime.AccountingRound
import Magellan.Policy.Weights
import Magellan.Policy.Resets
import Magellan.Policy.Grid
import Magellan.Carbon.Trends
import Magellan.Experiments.Downtime
import Magellan.Experiments.Segments
import Magellan.Experiments.DecisionBudget
import Magellan.Experiments.Causality
import Magellan.Experiments.BestStatic
import Magellan.Experiments.Journal
import Magellan.Submission.Requests
import Magellan.Capabilities.Checker
import Magellan.Telemetry.Exclusion
import Magellan.Telemetry.Attribution
import Magellan.Deployment.Validation
import Magellan.Experiments.Bundle
import Magellan.Workloads.Interruptions
import Magellan.Runtime.Publication
