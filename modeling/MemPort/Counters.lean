import MemPort.Word

/-!
# Counters

What the allocator counts.  Every counter is a 64-bit word that stops at its
largest value.

## Main definitions

* `Counters` — the eighteen counters, all zero at the start.
* `Counters.recordSend`, `Counters.recordDrain`, … — one event each.
* `Counters.merge` — the counters of two allocators taken together.
* `Counters.averageWait` — the mean wait of a transaction in its port.

## References

`SPEC_FULL.md`, section 10.5.
-/

namespace MemPort

/-- The counters of an allocator. -/
structure Counters where
  /-- Transactions admitted. -/
  accepted : Nat := 0
  /-- Submissions refused. -/
  requestorRejects : Nat := 0
  /-- Requests the memory accepted. -/
  backendSends : Nat := 0
  /-- Requests the memory refused. -/
  backendBlocked : Nat := 0
  /-- Transactions that joined a request before it was sent. -/
  spaceCoalesced : Nat := 0
  /-- Transactions that joined a request in flight. -/
  timeCoalesced : Nat := 0
  /-- Ports parked on a lock. -/
  lockBlocks : Nat := 0
  /-- Load-lockeds that went out. -/
  locksAcquired : Nat := 0
  /-- Locks dropped. -/
  locksReleased : Nat := 0
  /-- Snoops sent. -/
  snoopsSent : Nat := 0
  /-- Answers drained. -/
  responsesDrained : Nat := 0
  /-- Completions delivered. -/
  responsesDelivered : Nat := 0
  /-- Answers refused. -/
  responseRejects : Nat := 0
  /-- Accesses that bypassed the queues. -/
  functionalAccesses : Nat := 0
  /-- Transactions that left their port. -/
  requestCount : Nat := 0
  /-- The cycles they waited there, together. -/
  waitLatency : Nat := 0
  /-- Requests in flight. -/
  outstanding : Nat := 0
  /-- The most requests ever in flight. -/
  maxOutstanding : Nat := 0
  deriving DecidableEq, Repr, Inhabited

namespace Counters

/-- A transaction was admitted. -/
def recordAccept (c : Counters) : Counters := { c with accepted := satAdd c.accepted 1 }

/-- A submission was refused. -/
def recordRequestorReject (c : Counters) : Counters :=
  { c with requestorRejects := satAdd c.requestorRejects 1 }

/-- A request was accepted and is in flight. -/
def recordSend (c : Counters) : Counters :=
  { c with
    backendSends := satAdd c.backendSends 1
    outstanding := satAdd c.outstanding 1
    maxOutstanding := max c.maxOutstanding (satAdd c.outstanding 1) }

/-- A request was refused. -/
def recordBackendBlocked (c : Counters) : Counters :=
  { c with backendBlocked := satAdd c.backendBlocked 1 }

/-- Transactions joined a request before it was sent. -/
def recordSpaceCoalesced (n : Nat) (c : Counters) : Counters :=
  { c with spaceCoalesced := satAdd c.spaceCoalesced n }

/-- Transactions joined a request in flight. -/
def recordTimeCoalesced (n : Nat) (c : Counters) : Counters :=
  { c with timeCoalesced := satAdd c.timeCoalesced n }

/-- A port was parked. -/
def recordLockBlock (c : Counters) : Counters := { c with lockBlocks := satAdd c.lockBlocks 1 }

/-- A load-locked went out. -/
def recordLockAcquired (c : Counters) : Counters :=
  { c with locksAcquired := satAdd c.locksAcquired 1 }

/-- Locks were dropped. -/
def recordLocksReleased (n : Nat) (c : Counters) : Counters :=
  { c with locksReleased := satAdd c.locksReleased n }

/-- Snoops were sent. -/
def recordSnoops (n : Nat) (c : Counters) : Counters :=
  { c with snoopsSent := satAdd c.snoopsSent n }

/-- An answer was drained, and its request is no longer in flight. -/
def recordDrain (c : Counters) : Counters :=
  { c with
    responsesDrained := satAdd c.responsesDrained 1
    outstanding := c.outstanding - 1 }

/-- A completion was delivered. -/
def recordDelivery (c : Counters) : Counters :=
  { c with responsesDelivered := satAdd c.responsesDelivered 1 }

/-- An answer was refused. -/
def recordResponseReject (c : Counters) : Counters :=
  { c with responseRejects := satAdd c.responseRejects 1 }

/-- An access bypassed the queues. -/
def recordFunctional (c : Counters) : Counters :=
  { c with functionalAccesses := satAdd c.functionalAccesses 1 }

/-- A transaction left its port after a wait. -/
def recordWait (wait : Nat) (c : Counters) : Counters :=
  { c with
    requestCount := satAdd c.requestCount 1
    waitLatency := satAdd c.waitLatency wait }

/-- Two sets of counters taken together: sums, and the greater of the two maxima. -/
def merge (c d : Counters) : Counters where
  accepted := satAdd c.accepted d.accepted
  requestorRejects := satAdd c.requestorRejects d.requestorRejects
  backendSends := satAdd c.backendSends d.backendSends
  backendBlocked := satAdd c.backendBlocked d.backendBlocked
  spaceCoalesced := satAdd c.spaceCoalesced d.spaceCoalesced
  timeCoalesced := satAdd c.timeCoalesced d.timeCoalesced
  lockBlocks := satAdd c.lockBlocks d.lockBlocks
  locksAcquired := satAdd c.locksAcquired d.locksAcquired
  locksReleased := satAdd c.locksReleased d.locksReleased
  snoopsSent := satAdd c.snoopsSent d.snoopsSent
  responsesDrained := satAdd c.responsesDrained d.responsesDrained
  responsesDelivered := satAdd c.responsesDelivered d.responsesDelivered
  responseRejects := satAdd c.responseRejects d.responseRejects
  functionalAccesses := satAdd c.functionalAccesses d.functionalAccesses
  requestCount := satAdd c.requestCount d.requestCount
  waitLatency := satAdd c.waitLatency d.waitLatency
  outstanding := satAdd c.outstanding d.outstanding
  maxOutstanding := max c.maxOutstanding d.maxOutstanding

/-- The mean wait of a transaction in its port, zero if none has left. -/
def averageWait (c : Counters) : Float :=
  if c.requestCount = 0 then 0 else c.waitLatency.toUInt64.toFloat / c.requestCount.toUInt64.toFloat

/-- The counters by name, in the order in which they are listed in a summary. -/
def named (c : Counters) : List (String × Nat) :=
  [("accepted", c.accepted), ("requestor_rejects", c.requestorRejects),
    ("backend_sends", c.backendSends), ("backend_blocked", c.backendBlocked),
    ("space_coalesced", c.spaceCoalesced), ("time_coalesced", c.timeCoalesced),
    ("lock_blocks", c.lockBlocks), ("locks_acquired", c.locksAcquired),
    ("locks_released", c.locksReleased), ("snoops_sent", c.snoopsSent),
    ("responses_drained", c.responsesDrained), ("responses_delivered", c.responsesDelivered),
    ("response_rejects", c.responseRejects), ("functional_accesses", c.functionalAccesses),
    ("request_count", c.requestCount), ("wait_latency", c.waitLatency),
    ("outstanding", c.outstanding), ("max_outstanding", c.maxOutstanding)]

end Counters

end MemPort
