import MemPort.Packet
import MemPort.Text.Hex

/-!
# Failures

Three kinds of things go wrong.  An `InvariantViolation` means that the system
is wired wrongly or that the allocator itself is broken; a `LivenessFailure`
means that it is consistent but stuck; an `Assertion` means that a contract was
broken, which interrupts the call it was found in.

## Main definitions

* `InvariantViolation`, `LivenessFailure`, `Assertion` — the causes.
* `Failure` — any of the three.
* `Failure.message`, `Failure.chain` — how each is worded, and the causes
  behind it, outermost first.

## References

`SPEC_FULL.md`, sections 7 and 10.2: the classes of failures, and what each one
names.
-/

namespace MemPort

/-- The system is wired wrongly, or the allocator is broken. -/
inductive InvariantViolation where
  /-- An access spills past the end of its line. -/
  | oversizedAccess (port : Nat) (addr : Nat) (span lineSize : Nat)
  /-- A request number is in use. -/
  | duplicateRequestId (id : Nat)
  /-- The memory answered a request that nobody made. -/
  | unknownResponse (id : Nat)
  /-- The memory's answer is too short for the bytes asked for. -/
  | truncatedResponse (id : Nat) (length needed : Nat)
  /-- A requestor would not take its completion. -/
  | deliveryRefused (port : Nat) (addr : Nat)
  /-- A load-locked went out while another port held the lock. -/
  | lockOwnerMismatch (addr : Nat) (owner port : Nat)
  deriving DecidableEq, Repr

/-- The wording of an invariant violation. -/
def InvariantViolation.message : InvariantViolation → String
  | oversizedAccess port addr span lineSize =>
      s!"port {port}: access @ {Hex.number addr} spans {span} bytes, " ++
        s!"beyond the {lineSize} byte line"
  | duplicateRequestId id => s!"request id {id} is already outstanding"
  | unknownResponse id => s!"backend response {id} matches no outstanding request"
  | truncatedResponse id length needed =>
      s!"backend response {id} carries {length} bytes, {needed} needed"
  | deliveryRefused port addr => s!"port {port} refused completion for {Hex.number addr}"
  | lockOwnerMismatch addr owner port =>
      s!"load-locked on {Hex.number addr} by port {port} while port {owner} holds the lock"

/-- The allocator is consistent but stuck. -/
inductive LivenessFailure where
  /-- The oldest transaction of a port has waited too long. -/
  | portStalled (port : Nat) (addr : Nat) (waited : Nat)
  /-- Nothing has happened at all for too long. -/
  | globalIdle (lastActive now : Nat)
  deriving DecidableEq, Repr

/-- The wording of a liveness failure. -/
def LivenessFailure.message : LivenessFailure → String
  | portStalled port addr waited =>
      s!"port {port}: request @ {Hex.number addr} has not issued for {waited} cycles"
  | globalIdle lastActive now => s!"allocator idle since cycle {lastActive} (now {now})"

/-- A contract that a caller broke. -/
inductive Assertion where
  /-- A queue without room for a single entry. -/
  | emptyQueue
  /-- Storage larger than a machine can address. -/
  | storageLimit
  /-- A division by a size of zero. -/
  | divisionByZero
  /-- A sum or a product that is not a word. -/
  | overflow
  /-- An index past the end of a list. -/
  | indexOutOfRange
  /-- A configuration section that had to be well formed is not. -/
  | malformedSection
  /-- An arbiter of no ports. -/
  | noPorts
  /-- A ready mask that does not have one bit per port. -/
  | maskWidth
  /-- A grant to a port that does not exist. -/
  | grantOutOfRange (port : Nat)
  /-- A lock table whose locks expire at once. -/
  | lockTableTimeout
  /-- A configuration of no ports. -/
  | portCount
  /-- A line size that is not a power of two. -/
  | lineSize (size : Nat)
  /-- A budget of no requests in a cycle. -/
  | issueBudget
  /-- A configured lock timeout of zero. -/
  | lockTimeout
  /-- A progress check with a period of zero. -/
  | progressPeriod
  /-- A list of port latencies that does not have one entry per port. -/
  | portLatencies
  /-- A memory that can never take an access. -/
  | backendCapacity
  /-- A reservation granule that is not a power of two. -/
  | reservationGranule
  /-- A submission on a port that does not exist. -/
  | submitPort (port : Nat)
  /-- A functional access on a port that does not exist. -/
  | functionalPort (port : Nat)
  /-- A number of requestors other than the number of ports. -/
  | requestorCount
  /-- A memory access of no bytes. -/
  | zeroLength (addr : Nat)
  /-- A generator that is sent on before it has finished its pattern. -/
  | notAtBarrier
  deriving DecidableEq, Repr

/-- The wording of a broken contract; the ones that a machine detects by itself
have none. -/
def Assertion.message? : Assertion → Option String
  | emptyQueue => some "queue capacity must be > 0"
  | storageLimit | divisionByZero | overflow | indexOutOfRange | malformedSection
  | notAtBarrier => none
  | noPorts => some "arbiter needs at least one port"
  | maskWidth => some "ready mask width mismatch"
  | grantOutOfRange port => some s!"granted port {port} out of range"
  | lockTableTimeout => some "lock timeout must be > 0"
  | portCount => some "num_ports must be > 0"
  | lineSize size => some s!"line_size must be a power of two, got {size}"
  | issueBudget => some "max_issue_per_cycle must be > 0"
  | lockTimeout => some "lock_timeout must be > 0"
  | progressPeriod => some "progress_check_period must be > 0"
  | portLatencies => some "port_request_latency needs one entry per port"
  | backendCapacity => some "backend capacity must be non-zero"
  | reservationGranule => some "reservation granule must be a power of two"
  | submitPort port => some s!"submit on unknown port {port}"
  | functionalPort port => some s!"functional access on unknown port {port}"
  | requestorCount => some "one requestor per port expected"
  | zeroLength addr => some s!"zero-length memory access @ {Hex.number addr}"

/-- Why a step of the allocator did not complete. -/
inductive Failure where
  /-- The system is wired wrongly. -/
  | invariant (v : InvariantViolation)
  /-- The allocator is stuck. -/
  | liveness (l : LivenessFailure)
  /-- A contract was broken, and the call was interrupted. -/
  | assertion (a : Assertion)
  deriving DecidableEq, Repr

/-- The wording of a failure. -/
def Failure.message : Failure → String
  | invariant v => v.message
  | liveness l => s!"no forward progress: {l.message}"
  | assertion a => a.message?.getD ""

/-- A failure with the causes behind it, outermost first. -/
def Failure.chain : Failure → List String
  | liveness l => [(liveness l).message, l.message]
  | f => [f.message]

end MemPort
