import MemPort.Bench.Basic
import MemPort.Main
import MemPort.Proofs.Answers
import MemPort.Proofs.Bookkeeping
import MemPort.Proofs.CompletionOrder
import MemPort.Proofs.Conservation
import MemPort.Proofs.Consistency
import MemPort.Proofs.Cycles
import MemPort.Proofs.Entries
import MemPort.Proofs.Fairness
import MemPort.Proofs.Flight
import MemPort.Proofs.Folding
import MemPort.Proofs.Fronts
import MemPort.Proofs.Generators
import MemPort.Proofs.Handshakes
import MemPort.Proofs.ImmediateStores
import MemPort.Proofs.InOrder
import MemPort.Proofs.Invalidations
import MemPort.Proofs.LockExclusion
import MemPort.Proofs.Offers
import MemPort.Proofs.Parking
import MemPort.Proofs.Promises
import MemPort.Proofs.Redundancy
import MemPort.Proofs.Refusals
import MemPort.Proofs.Regions
import MemPort.Proofs.Retries
import MemPort.Proofs.Rotation
import MemPort.Proofs.Runs
import MemPort.Proofs.Serializability
import MemPort.Proofs.Setup
import MemPort.Proofs.SimulationCycles
import MemPort.Proofs.SimulationVerdict
import MemPort.Proofs.StoreVisibility
import MemPort.Proofs.Wiring
import MemPort.Proofs.Tallies
import MemPort.Proofs.Arrivals
import MemPort.Proofs.Statistics
import MemPort.Proofs.FoldCounts
import MemPort.Proofs.InternalFailures
import MemPort.Proofs.Layouts
import MemPort.Proofs.Reservations
import MemPort.Proofs.Watchdog
import MemPort.Proofs.Reconciliation
import MemPort.Proofs.Lockstep
import MemPort.Proofs.LineFit
import MemPort.Proofs.LockCalls
import MemPort.Proofs.Iterations
import MemPort.Proofs.Pipelines
import MemPort.Proofs.Rounds
import MemPort.Proofs.Strides
import MemPort.Proofs.Submissions
import MemPort.Proofs.LastStores
