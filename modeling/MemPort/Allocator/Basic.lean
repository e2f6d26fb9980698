import MemPort.Allocator.Config
import MemPort.BackendPort
import MemPort.Coalesced
import MemPort.Counters
import MemPort.LockTable
import MemPort.RequestorPort
import MemPort.RoundRobin

/-!
# The allocator

The allocator arbitrates between requestor ports for one memory.  It lets loads
of one line share an access and makes linked accesses respect each other's
locks.

This module holds its state and the entry points that concern the allocator
alone: a submission by a requestor, an answer of the memory, and the memory's
call that it takes requests again.

## Main definitions

* `Allocator`, `Allocator.new` — the state, and how it starts.
* `Allocator.submit`, `Allocator.receive`, `Allocator.backendRetry` — the
  entry points.
* `Allocator.waiting`, `Allocator.unparked`, `Allocator.weight` — how much
  there is to issue.

## References

`SPEC_FULL.md`, sections 2 and 6: the allocator, and what it exposes to either
side.
-/

namespace MemPort

/-- The state of an allocator. -/
structure Allocator where
  /-- The settings. -/
  config : AllocatorConfig
  /-- The front ends, by port number. -/
  ports : List RequestorPort
  /-- The channel to the memory. -/
  backendPort : BackendPort
  /-- The rotation of grants. -/
  arbiter : RoundRobin
  /-- The requests in flight, the oldest first. -/
  outstanding : AscMap Coalesced
  /-- The locks of load-lockeds. -/
  locks : LockTable
  /-- The number of the next request. -/
  nextId : Nat
  /-- When something last happened. -/
  lastActive : Nat
  /-- When progress is checked next. -/
  nextProgressCheck : Nat
  /-- What has been counted. -/
  stats : Counters

namespace Allocator

/-- An allocator at rest, of a configuration that passes its check. -/
def new (config : AllocatorConfig) : Except Assertion Allocator := do
  config.check
  let ports ← (List.range config.numPorts).mapM fun port =>
    RequestorPort.new port (config.portLatency port)
  let backendPort ← BackendPort.new config.responseLatency
  let arbiter ← RoundRobin.new config.numPorts
  let locks ← LockTable.new config.lockTimeout
  return {
    config, ports, backendPort, arbiter, locks
    outstanding := ∅
    nextId := 0
    lastActive := 0
    nextProgressCheck := config.progressCheckPeriod
    stats := {} }

/-! ### Changing a part -/

/-- Change the counters. -/
def count (a : Allocator) (f : Counters → Counters) : Allocator := { a with stats := f a.stats }

/-- Replace the front end of a port. -/
def setPort (a : Allocator) (port : Nat) (p : RequestorPort) : Allocator :=
  { a with ports := a.ports.set port p }

/-- Let every parked port try again. -/
def unparkAll (a : Allocator) : Allocator :=
  { a with ports := a.ports.map fun p => { p with locked := false } }

/-! ### Views -/

/-- Nothing is queued, nothing is in flight, and no answer waits. -/
def isIdle (a : Allocator) : Bool :=
  a.outstanding.isEmpty && a.backendPort.pending == 0 && a.ports.all (·.queue.isEmpty)

/-- Which ports have a visible head. -/
def readyMask (a : Allocator) (now : Nat) : List Bool := a.ports.map (·.isHeadReady now)

/-- The visible head of a port. -/
def headAt? (a : Allocator) (now port : Nat) : Option Transaction :=
  a.ports[port]?.bind (·.head? now)

/-- The number of queued transactions. -/
def waiting (a : Allocator) : Nat := total (a.ports.map (·.length))

/-- The number of ports that are not parked. -/
def unparked (a : Allocator) : Nat := a.ports.countP fun p => !p.locked

/-- A bound on the work of a cycle: queued transactions count before unparked
ports. -/
def weight (a : Allocator) : Nat := a.waiting * (a.ports.length + 1) + a.unparked

/-! ### Entry points -/

/-- A requestor submits a transaction on its port.  A refused one is owed a
retry. -/
def submit (a : Allocator) (now port : Nat) (txn : Transaction) :
    Except Assertion (Logged (Bool × Allocator)) :=
  match a.ports[port]? with
  | none => .error (.submitPort port)
  | some p =>
      let pushed := p.push now txn
      let a := a.setPort port pushed.value.2
      let a := a.count (if pushed.value.1 then .recordAccept else .recordRequestorReject)
      .ok ⟨(pushed.value.1, a), .receiving port txn :: pushed.notices⟩

/-- The memory answers a request.  A refused answer is owed a retry. -/
def receive (a : Allocator) (now : Nat) (response : BackendResponse) :
    Logged (Bool × Allocator) :=
  let taken := a.backendPort.receive now response
  let a := { a with backendPort := taken.value.2 }
  let a := if taken.value.1 then a else a.count .recordResponseReject
  ⟨(taken.value.1, a), .receivingResponse response.id response.data.length :: taken.notices⟩

/-- The memory takes requests again. -/
def backendRetry (a : Allocator) : Logged Allocator :=
  ⟨{ a with backendPort := a.backendPort.onRetry }, [.backendRetry]⟩

theorem headAt?_eq_some_iff {a : Allocator} {now port : Nat} {txn : Transaction} :
    a.headAt? now port = some txn ↔ ∃ p, a.ports[port]? = some p ∧ p.head? now = some txn :=
  Option.bind_eq_some_iff

/-- A submission is pushed on its port, which must exist, and it is counted. -/
theorem exists_of_submit {a : Allocator} {now port : Nat} {txn : Transaction}
    {l : Logged (Bool × Allocator)} (h : a.submit now port txn = .ok l) :
    ∃ p, a.ports[port]? = some p ∧ l.value = ((p.push now txn).value.1,
      (a.setPort port (p.push now txn).value.2).count
        (if (p.push now txn).value.1 then .recordAccept else .recordRequestorReject)) := by
  unfold submit at h
  split at h
  · cases h
  · rename_i p hp
    cases h
    exact ⟨p, hp, rfl⟩

/-- An answer concerns the backend port and the count of refused answers, and
nothing else. -/
theorem frame_receive (a : Allocator) (now : Nat) (response : BackendResponse) :
    ∃ backendPort responseRejects, (a.receive now response).value.2 =
      { a with backendPort, stats := { a.stats with responseRejects } } := by
  unfold receive
  simp only
  split
  · exact ⟨_, a.stats.responseRejects, rfl⟩
  · exact ⟨_, _, rfl⟩

end Allocator

end MemPort
