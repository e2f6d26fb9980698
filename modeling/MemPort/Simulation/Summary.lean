import MemPort.Simulation.Basic
import MemPort.Text.Json

/-!
# Summaries

What is left of a simulation that came to its end: how long it took, what was
counted, and the value of the counter.

## Main definitions

* `Summary`, `Summary.toJson` — the summary and its document.
* `Simulation.summarize` — read the counter back, and compare it with the
  increments.

## References

`SPEC_FULL.md`, section 10.7: the counter is read back, and the summary.
-/

namespace MemPort

/-- The counters of a generator as a document. -/
def GeneratorCounters.toJson (port : Nat) (c : GeneratorCounters) : Json :=
  .object [("port", .number port), ("issued", .number c.issued),
    ("completed", .number c.completed), ("rejects", .number c.rejects),
    ("retries", .number c.retries), ("snoops", .number c.snoops),
    ("sc_successes", .number c.scSuccesses), ("sc_failures", .number c.scFailures),
    ("total_latency", .number c.totalLatency), ("max_latency", .number c.maxLatency),
    ("finished_at", .ofOption c.finishedAt)]

/-- What is left of a simulation. -/
structure Summary where
  /-- The last cycle. -/
  cycles : Nat
  /-- What the allocator counted. -/
  allocator : Counters
  /-- What the memory counted. -/
  memory : MemoryCounters
  /-- What the generators counted, by port number. -/
  generators : List (Nat × GeneratorCounters)
  /-- The value of the counter. -/
  counter : Nat
  deriving Repr

/-- A summary as a document. -/
def Summary.toJson (s : Summary) : Json :=
  .object [("cycles", .number s.cycles), ("allocator", .ofNamed s.allocator.named),
    ("backend", .ofNamed s.memory.named),
    ("requestors", .array (s.generators.map fun g => g.2.toJson g.1)),
    ("counter", .number s.counter)]

namespace Simulation

/-- The increments that took effect, as the generators counted them. -/
def successes (s : Simulation) : Nat := total (s.generators.map (·.stats.scSuccesses))

/-- Summarize a simulation whose counter reads the given value. -/
def summaryOf (s : Simulation) (counter : Nat) : Summary where
  cycles := s.cycle
  allocator := s.assembly.allocator.stats
  memory := s.memory.stats
  generators := s.generators.map fun g => (g.port, g.stats)
  counter := counter

/-- Compare the bytes of the counter with the increments that took effect. -/
def judgeCounter (s : Simulation) (bytes : Bytes) : Run Summary :=
  if bytes.length < Generator.counterBytes then .error (.counterShort bytes.length) s
  else
    let counter := wordOfBytes (bytes.take Generator.counterBytes)
    let successes := s.successes
    let s := if 0 < successes then
        s.print s!"[TRAFFIC] atomic counter {counter} (expected {successes})"
      else s
    if counter = successes then .ok (s.summaryOf counter) s
    else .error (.counterMismatch counter successes) s

/-- Read the counter back past the queues, and summarize. -/
def summarize (s : Simulation) : Run Summary :=
  let addr := s.layout.counterAddr s.numPorts
  let txn := Transaction.load .read functionalId addr Generator.counterBytes
  match s.assembly.accessFunctional s.cycle 0 txn with
  | .error e m => .error (.ofFailure .counterRefused e) { s with assembly := m }
  | .ok response m =>
      let s := { s with assembly := m }
      match s.memory.takeFault with
      | (some f, memory) => .error (.counterFailed f) (s.setMemory memory)
      | (none, _) => s.judgeCounter response.data

end Simulation

end MemPort
