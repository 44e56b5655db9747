import TerminusMonitor.Simulation.Scripted
import TerminusMonitor.Simulation.Waiting
import TerminusMonitor.Simulation.World
import TerminusMonitor.Proofs.Ledger
import TerminusMonitor.Proofs.Outstanding
import TerminusMonitor.Proofs.Placement
import TerminusMonitor.Proofs.Walk
import TerminusMonitor.Proofs.Commons
import TerminusMonitor.Proofs.Safety
import TerminusMonitor.Proofs.Sharing
import TerminusMonitor.Proofs.Succession
import TerminusMonitor.Proofs.Fairness
import TerminusMonitor.Proofs.Deadlines
import TerminusMonitor.Proofs.Resilience
import TerminusMonitor.Proofs.Deferral
import TerminusMonitor.Proofs.Silence
import TerminusMonitor.Proofs.Persistence
import TerminusMonitor.Proofs.Repose
import TerminusMonitor.Proofs.Retries
import TerminusMonitor.Proofs.Upkeep
import TerminusMonitor.Proofs.Leftovers
import TerminusMonitor.Proofs.Reordering
import TerminusMonitor.Proofs.Revival
import TerminusMonitor.Proofs.Paths
import TerminusMonitor.Proofs.Isolation
import TerminusMonitor.Proofs.Roster
import TerminusMonitor.Proofs.Setting
import TerminusMonitor.Proofs.IdSets
import TerminusMonitor.Proofs.Registering
import TerminusMonitor.Proofs.Replies
import TerminusMonitor.Proofs.Pace
import TerminusMonitor.Proofs.Intervals
import TerminusMonitor.Proofs.Sensing
import TerminusMonitor.Proofs.Doubles
import TerminusMonitor.Proofs.Records
import TerminusMonitor.Proofs.Buffers
import TerminusMonitor.Proofs.Counts
import TerminusMonitor.Proofs.Datagrams
import TerminusMonitor.Proofs.Requests
