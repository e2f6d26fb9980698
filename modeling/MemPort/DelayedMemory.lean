import MemPort.Allocator.Basic
import MemPort.Memory
import MemPort.Surroundings

/-!
# A memory with a latency

The memory behind the allocator.  An access is performed when it is accepted,
and its answer is held back for a fixed latency.  A memory with as many accesses
in flight as it can hold refuses more, and then owes the allocator a retry.

A load-locked reserves the granule of its address for its port.  A
store-conditional takes effect only while its port holds that reservation, and
every access that stores clears the reservations of the granules it touches.

## Main definitions

* `MemoryConfig`, `MemoryCounters` — settings and counters.
* `DelayedMemory`, `DelayedMemory.new` — the memory, and how it starts.
* `DelayedMemory.perform` — the effect of an access.
* `DelayedMemory.accept`, `DelayedMemory.tick` — requests come in, answers go
  out.

## References

`SPEC_FULL.md`, section 10.7: the memory with a fixed latency and with
reservations.
-/

namespace MemPort

/-- The settings of a memory. -/
structure MemoryConfig where
  /-- The cycles from taking a request to offering its answer. -/
  latency : Nat := 8
  /-- The number of accesses in flight. -/
  capacity : Nat := 8
  /-- The number of bytes. -/
  memoryBytes : Nat := 1 <<< 20
  /-- The bytes that a load-locked reserves. -/
  reservationBytes : Nat := 64
  deriving DecidableEq, Repr, Inhabited

/-- The counters of a memory. -/
structure MemoryCounters where
  /-- Requests taken. -/
  accepted : Nat := 0
  /-- Requests refused. -/
  refused : Nat := 0
  /-- Answers that the allocator took. -/
  responses : Nat := 0
  /-- Answers that the allocator refused. -/
  responsesRefused : Nat := 0
  /-- Store-conditionals without a reservation. -/
  scFailures : Nat := 0
  deriving DecidableEq, Repr, Inhabited

/-- The counters by name, in the order in which they are listed in a summary. -/
def MemoryCounters.named (c : MemoryCounters) : List (String × Nat) :=
  [("accepted", c.accepted), ("refused", c.refused), ("responses", c.responses),
    ("responses_refused", c.responsesRefused), ("sc_failures", c.scFailures)]

/-- An access that the memory could not perform. -/
structure AccessFailure where
  /-- What was to be done. -/
  cmd : Command
  /-- The first byte. -/
  addr : Nat
  /-- The port that asked for it. -/
  origin : Nat
  /-- Why it failed. -/
  cause : MemoryFault
  deriving DecidableEq, Repr

/-- A failed access with its cause, outermost first. -/
def AccessFailure.chain (f : AccessFailure) : List String :=
  [s!"{f.cmd.label} @ {Hex.number f.addr} from port {f.origin}", f.cause.message]

/-- A memory that answers after a latency. -/
structure DelayedMemory where
  /-- The settings. -/
  config : MemoryConfig
  /-- The bytes. -/
  memory : Memory
  /-- The answers that are held back. -/
  inflight : TimedQueue BackendResponse
  /-- The port that holds the reservation of a granule, by the start of the
  granule. -/
  reservations : AscMap Nat
  /-- Whether a request was refused and the allocator is owed a retry. -/
  oweRetry : Bool
  /-- Whether an answer was refused and the allocator has not asked for it again. -/
  responseBlocked : Bool
  /-- The first access that failed, until it is taken. -/
  fault : Option AccessFailure
  /-- What has been counted. -/
  stats : MemoryCounters

namespace DelayedMemory

/-- A memory of zeros without accesses in flight. -/
def new (config : MemoryConfig) : Except Assertion DelayedMemory := do
  if config.capacity = 0 then throw .backendCapacity
  if !isPowerOfTwo config.reservationBytes then throw .reservationGranule
  let memory ← Memory.new config.memoryBytes
  let inflight ← TimedQueue.new ⟨config.latency, config.capacity⟩
  return {
    config, memory, inflight
    reservations := ∅
    oweRetry := false
    responseBlocked := false
    fault := none
    stats := {} }

/-- Change the counters. -/
def count (m : DelayedMemory) (f : MemoryCounters → MemoryCounters) : DelayedMemory :=
  { m with stats := f m.stats }

/-- Whether nothing is in flight. -/
def isIdle (m : DelayedMemory) : Bool := m.inflight.isEmpty

/-- Hand over the first failure, and forget it. -/
def takeFault (m : DelayedMemory) : Option AccessFailure × DelayedMemory :=
  (m.fault, { m with fault := none })

/-! ### Reservations -/

/-- The granule that holds an address. -/
def granule (m : DelayedMemory) (addr : Nat) : Nat := blockBase addr m.config.reservationBytes

/-- The port that holds the reservation of an address. -/
def reservation? (m : DelayedMemory) (addr : Nat) : Option Nat :=
  m.reservations.get? (m.granule addr)

/-- Reserve the granule of an address for a port. -/
def reserve (m : DelayedMemory) (addr port : Nat) : DelayedMemory :=
  { m with reservations := m.reservations.insert (m.granule addr) port }

/-- Clear the reservations of the granules from that of the first byte to that
of the last. -/
def clearReservations (m : DelayedMemory) (addr size : Nat) : DelayedMemory :=
  let first := m.granule addr
  let last := m.granule (satAdd addr (max size 1 - 1))
  { m with reservations := m.reservations.filter fun g _ => !(first ≤ g && g ≤ last) }

/-! ### Accesses -/

/-- Put bytes at an address, and clear the reservations of what the request
covers. -/
def storeFor (m : DelayedMemory) (request : BackendRequest) : Except MemoryFault DelayedMemory :=
  (m.memory.write request.addr request.data).map fun memory =>
    ({ m with memory } : DelayedMemory).clearReservations request.addr request.size

/-- The effect of an access and its answer.  An access that leaves the memory
has no effect. -/
def perform (m : DelayedMemory) (request : BackendRequest) :
    Except MemoryFault (BackendResponse × DelayedMemory) :=
  match request.cmd with
  | .read =>
      (m.memory.read request.addr request.size).map fun data => (⟨request.id, data, true⟩, m)
  | .loadLocked =>
      (m.memory.read request.addr request.size).map fun data =>
        (⟨request.id, data, true⟩, m.reserve request.addr request.origin)
  | .write => (m.storeFor request).map fun m => (⟨request.id, [], true⟩, m)
  | .swap => do
      let old ← m.memory.read request.addr request.data.length
      let m ← m.storeFor request
      return (⟨request.id, old, true⟩, m)
  | .storeCond =>
      if m.reservation? request.addr = some request.origin then
        (m.storeFor request).map fun m => (⟨request.id, [], true⟩, m)
      else
        -- a failed attempt clears the reservations of others as well
        let m := m.count fun c => { c with scFailures := c.scFailures + 1 }
        .ok (⟨request.id, [], false⟩, m.clearReservations request.addr request.size)

/-- Keep a failure unless there is an earlier one. -/
def keepFault (m : DelayedMemory) (f : AccessFailure) : DelayedMemory :=
  { m with fault := m.fault.or (some f) }

/-- Perform an access.  One that leaves the memory is answered with zeros and
kept as a failure; one of no bytes is the caller's mistake. -/
def access (m : DelayedMemory) (request : BackendRequest) :
    Except Assertion (Logged (BackendResponse × DelayedMemory)) :=
  match m.perform request with
  | .ok r => .ok (.quiet r)
  | .error (.zeroLength addr) => .error (.zeroLength addr)
  | .error cause =>
      let m := m.keepFault ⟨request.cmd, request.addr, request.origin, cause⟩
      .ok ⟨(⟨request.id, List.replicate request.size 0, false⟩, m),
        [.accessFailed request.id cause.message]⟩

/-- Take a request, unless as many are in flight as can be. -/
def accept (m : DelayedMemory) (now : Nat) (request : BackendRequest) :
    Except Assertion (Logged (Bool × DelayedMemory)) :=
  if m.inflight.isFull then
    let m : DelayedMemory := { m with oweRetry := true }
    .ok (.quiet (false, m.count fun c => { c with refused := c.refused + 1 }))
  else
    (m.access request).map fun l => l.map fun (answer, m) =>
      let m := m.count fun c => { c with accepted := c.accepted + 1 }
      match m.inflight.push? now answer with
      | some inflight => (true, { m with inflight })
      -- never: there was room for one more
      | none => (false, m)

/-- The allocator has room again for an answer. -/
def unblock (m : DelayedMemory) : DelayedMemory := { m with responseBlocked := false }

instance : Backend DelayedMemory where
  accept now request m := m.accept now request
  notifyResponseRetry m := .quiet m.unblock
  accessFunctional request m := m.access request

/-! ### Answers -/

/-- Offer the answers whose latency has passed, oldest first, until the
allocator refuses one. -/
def offerAnswers (now : Nat) (m : DelayedMemory) (a : Allocator) :
    Logged (DelayedMemory × Allocator) :=
  if m.responseBlocked then .quiet (m, a)
  else
    match _h : m.inflight.pop? now with
    | none => .quiet (m, a)
    | some (head, inflight) =>
        let offered := a.receive now head.payload
        if offered.value.1 then
          let m : DelayedMemory := { m with inflight }
          let m := m.count fun c => { c with responses := c.responses + 1 }
          offered.andThen fun r => offerAnswers now m r.2
        else
          let m : DelayedMemory := { m with responseBlocked := true }
          let m := m.count fun c => { c with responsesRefused := c.responsesRefused + 1 }
          offered.andThen fun r => ⟨(m, r.2), [.answerRefused head.payload.id]⟩
termination_by m.inflight.length
decreasing_by
  have := TimedQueue.length_pop? _h
  simp only [count]
  omega

/-- Call the allocator back if a request was refused and can now be taken. -/
def settleRetry (m : DelayedMemory) (a : Allocator) : Logged (DelayedMemory × Allocator) :=
  if m.oweRetry && !m.inflight.isFull then
    a.backendRetry.map fun a => ({ m with oweRetry := false }, a)
  else .quiet (m, a)

/-- The memory's part of a cycle: answers that are ready go out, then a retry
that is owed. -/
def tick (m : DelayedMemory) (now : Nat) (a : Allocator) : Logged (DelayedMemory × Allocator) :=
  (m.offerAnswers now a).andThen fun r => r.1.settleRetry r.2

/-- After its answers, the memory changes its debt at most. -/
theorem frame_tick (m : DelayedMemory) (now : Nat) (a : Allocator) :
    ∃ oweRetry, (m.tick now a).value.1 = { (m.offerAnswers now a).value.1 with oweRetry } := by
  unfold tick
  rw [Logged.value_andThen]
  unfold settleRetry
  split
  · exact ⟨false, rfl⟩
  · exact ⟨_, rfl⟩

end DelayedMemory

end MemPort
