import MemPort.Allocator.Access
import MemPort.Bench.EchoMemory
import MemPort.Bench.Lanes
import MemPort.DelayedMemory

/-!
# A test bench

A bench puts an allocator between lanes and a memory that can be told what to
do, and lets its clock be moved by hand.  All calls that the allocator makes are
recorded.

A broken contract interrupts what the allocator was doing, and nothing is
undone: what was counted, noted and called before stays, so a bench can be used
on from where it was interrupted.

## Main definitions

* `BenchMemory` — the memory of a bench: one that echoes, or one with a
  latency.
* `Bench`, `Bench.new` — the bench, and how it starts.
* `Bench.look`, `Bench.takeContacts` — the calls that were made, and what they
  say about requests.
* `Bench.after` — keep what a call leaves behind, whether or not it failed.
* `Bench.tick` — a cycle of the allocator, after which an automatic memory
  offers its answers.
* `Bench.respond`, `Bench.respondNth` — answers given by hand.

## References

`SPEC_FULL.md`, section 10.8: scenarios with requestors and memories that record
their calls.
-/

namespace MemPort

/-- The memory of a bench. -/
inductive BenchMemory where
  /-- One that echoes. -/
  | echo (m : EchoMemory)
  /-- One with a latency. -/
  | delayed (m : DelayedMemory)

namespace BenchMemory

instance : Backend BenchMemory where
  accept now request
    | echo m => (Backend.accept now request m).map fun l => l.map fun r => (r.1, echo r.2)
    | delayed m => (Backend.accept now request m).map fun l => l.map fun r => (r.1, delayed r.2)
  notifyResponseRetry
    | echo m => (Backend.notifyResponseRetry m).map echo
    | delayed m => (Backend.notifyResponseRetry m).map delayed
  accessFunctional request
    | echo m => (Backend.accessFunctional request m).map fun l => l.map fun r => (r.1, echo r.2)
    | delayed m =>
        (Backend.accessFunctional request m).map fun l => l.map fun r => (r.1, delayed r.2)

/-- How the memory of a bench is configured. -/
inductive Choice where
  /-- One that echoes, automatically or not. -/
  | echo (isAutomatic : Bool)
  /-- One with a latency. -/
  | delayed (config : MemoryConfig)
  deriving Repr

/-- A memory that has not been used. -/
def ofChoice : Choice → Except Assertion BenchMemory
  | .echo isAutomatic => .ok (echo (EchoMemory.new isAutomatic))
  | .delayed config => (DelayedMemory.new config).map delayed

end BenchMemory

/-- The surroundings of the allocator of a bench. -/
abbrev BenchSurroundings := Recorded (Lanes × BenchMemory)

/-- A request that the memory of a bench accepted. -/
structure SentRequest where
  /-- The request. -/
  request : BackendRequest
  /-- Whether it has been answered in turn. -/
  isAnswered : Bool
  deriving DecidableEq, Repr

/-- An allocator between lanes and a memory that can be told what to do. -/
structure Bench where
  /-- The allocator with its lanes and its memory. -/
  assembly : Assembly BenchSurroundings
  /-- The patterns of the generators. -/
  set : PatternSet
  /-- The current cycle. -/
  now : Nat
  /-- The requests that the memory accepted, by number: of each number the last. -/
  sent : AscMap SentRequest
  /-- The calls that have been looked at but not taken, oldest first. -/
  contacts : List Contact

namespace Bench

/-- A bench whose clock shows zero. -/
def new (allocator : Allocator) (lanes : Lanes) (memory : BenchMemory) (set : PatternSet)
    (level : Level) : Bench where
  assembly := ⟨allocator, .start (lanes, memory), .start level⟩
  set := set
  now := 0
  sent := ∅
  contacts := []

/-! ### Parts -/

/-- The lanes. -/
def lanes (b : Bench) : Lanes := b.assembly.surroundings.inner.1

/-- The memory. -/
def memory (b : Bench) : BenchMemory := b.assembly.surroundings.inner.2

/-- Replace lanes and memory. -/
def setInner (b : Bench) (inner : Lanes × BenchMemory) : Bench :=
  { b with assembly := { b.assembly with surroundings := { b.assembly.surroundings with inner } } }

/-- Replace the lanes. -/
def setLanes (b : Bench) (lanes : Lanes) : Bench := b.setInner (lanes, b.memory)

/-- Replace the memory. -/
def setMemory (b : Bench) (memory : BenchMemory) : Bench := b.setInner (b.lanes, memory)

/-- Change a memory that echoes; one with a latency stays as it is. -/
def changeEcho (b : Bench) (f : EchoMemory → EchoMemory) : Bench :=
  match b.memory with
  | .echo m => b.setMemory (.echo (f m))
  | .delayed _ => b

/-- The memory, if it has a latency. -/
def delayed? (b : Bench) : Except Assertion DelayedMemory :=
  match b.memory with
  | .echo _ => .error .indexOutOfRange
  | .delayed m => .ok m

/-- Keep the notices of a step. -/
def noteAll (b : Bench) (ns : List Notice) : Bench :=
  { b with assembly := b.assembly.noteAll ns }

/-- Note a request that the memory accepted.  It is unanswered, even where its
number was answered before. -/
def rememberSent (sent : AscMap SentRequest) : Contact → AscMap SentRequest
  | .offered request true => sent.insert request.id ⟨request, false⟩
  | _ => sent

/-- Look at the calls that were made since the last look. -/
def look (b : Bench) : Bench :=
  let s := b.assembly.surroundings
  { b with
    assembly := { b.assembly with surroundings := { s with contacts := [] } }
    sent := s.history.foldl rememberSent b.sent
    contacts := b.contacts ++ s.history }

/-- The calls that have not been taken, oldest first. -/
def takeContacts (b : Bench) : List Contact × Bench :=
  let b := b.look
  (b.contacts, { b with contacts := [] })

/-! ### The clock -/

/-- Offer answers in order, until one is refused; the result has those that are
left. -/
def offerReplies (now : Nat) (m : Assembly BenchSurroundings) :
    List BackendResponse → List BackendResponse × Assembly BenchSurroundings
  | [] => ([], m)
  | reply :: rest =>
      match m.receive now reply with
      | (true, m) => offerReplies now m rest
      | (false, m) => (reply :: rest, m)

/-- An automatic memory that is not blocked offers its answers. -/
def autoReply (b : Bench) : Bench :=
  match b.memory with
  | .delayed _ => b
  | .echo e =>
      if e.isAutomatic && !e.isBlocked then
        let (left, assembly) := offerReplies b.now b.assembly e.replies
        let b := { b with assembly }
        b.setMemory (.echo { e with replies := left, isBlocked := !left.isEmpty })
      else b

/-- The clock goes on by a cycle, unless it shows the last. -/
def advanceClock (b : Bench) : Except Assertion Bench :=
  if b.now < maxWord then .ok { b with now := b.now + 1 } else .error .overflow

/-- The end of a cycle: an automatic memory offers its answers, and the clock
goes on. -/
def endCycle (b : Bench) (result : Except Failure Unit) : Except Failure Unit × Bench :=
  let b := b.autoReply
  match b.advanceClock with
  | .error a => (.error (.assertion a), b)
  | .ok b => (result, b)

/-- Let a cycle pass: the allocator has its turn, and the cycle ends, even if
the turn failed.  A broken contract interrupts it. -/
def tick (b : Bench) : Except Failure Unit × Bench :=
  match b.assembly.tick b.now with
  | .error (.assertion a) assembly => (.error (.assertion a), { b with assembly })
  | .error e assembly => ({ b with assembly } : Bench).endCycle (.error e)
  | .ok () assembly => ({ b with assembly } : Bench).endCycle (.ok ())

/-! ### The allocator's entry points -/

/-- Keep what a call leaves behind, whether or not it failed. -/
def after {α : Type} (b : Bench) : Outcome BenchSurroundings α → Except Failure α × Bench
  | .error e assembly => (.error e, { b with assembly })
  | .ok answer assembly => (.ok answer, { b with assembly })

/-- Submit a transaction that is made now. -/
def submit (b : Bench) (port : Nat) (txn : Transaction) : Except Failure Bool × Bench :=
  b.after (b.assembly.submit b.now port { txn with issuedAt := b.now })

/-- Offer an answer to the allocator. -/
def receive (b : Bench) (response : BackendResponse) : Bool × Bench :=
  let (taken, assembly) := b.assembly.receive b.now response
  (taken, { b with assembly })

/-- The answer to the request of a number: given bytes, or else the echo of the
request, or no bytes where there was no request. -/
def answerFor (b : Bench) (id : Nat) (data : Option Bytes) (success : Bool) : BackendResponse :=
  let echo := ((b.sent.get? id).map fun s => (echoOf s.request).data).getD []
  ⟨id, data.getD echo, success⟩

/-- Answer the request of a number. -/
def respond (b : Bench) (id : Nat) (data : Option Bytes) (success : Bool) : Bool × Bench :=
  let b := b.look
  b.receive (b.answerFor id data success)

/-- The accepted requests that have not been answered in turn, by ascending
number. -/
def unanswered (b : Bench) : List SentRequest :=
  b.sent.values.filter fun s => !s.isAnswered

/-- Echo one of the unanswered requests, counted around; a refused answer leaves
it unanswered. -/
def respondNth (b : Bench) (n : Nat) : Option (Nat × Bool) × Bench :=
  let b := b.look
  let waiting := b.unanswered
  match waiting[n % waiting.length]? with
  | none => (none, b)
  | some s =>
      let id := s.request.id
      let (taken, b) := b.receive (echoOf s.request)
      let b := if taken then
        { b with sent := b.sent.insert id { s with isAnswered := true } } else b
      (some (id, taken), b)

/-- Perform an access past the queues. -/
def functional (b : Bench) (port : Nat) (txn : Transaction) : Except Failure Response × Bench :=
  b.after (b.assembly.accessFunctional b.now port txn)

/-- The memory calls the allocator back. -/
def backendRetry (b : Bench) : Bench := { b with assembly := b.assembly.backendRetry }

/-! ### The memory -/

/-- Replace the surroundings after a call, and keep its notices. -/
def afterCall (b : Bench) (surroundings : BenchSurroundings) (ns : List Notice) : Bench :=
  ({ b with assembly := { b.assembly with surroundings } } : Bench).noteAll ns

/-- Offer a request to the memory, past the allocator. -/
def accept (b : Bench) (request : BackendRequest) : Except Assertion (Bool × Bench) :=
  (Backend.accept b.now request b.assembly.surroundings).map fun l =>
    (l.value.1, b.afterCall l.value.2 l.notices)

/-- Perform an access of the memory, past the allocator. -/
def direct (b : Bench) (request : BackendRequest) : Except Assertion (BackendResponse × Bench) :=
  (Backend.accessFunctional request b.assembly.surroundings).map fun l =>
    (l.value.1, b.afterCall l.value.2 l.notices)

/-- Tell the memory to offer a refused answer again. -/
def responseRetry (b : Bench) : Bench :=
  let l := Backend.notifyResponseRetry b.assembly.surroundings
  b.afterCall l.value l.notices

/-- A cycle of a memory with a latency. -/
def memoryTick (b : Bench) : Except Assertion Bench :=
  b.delayed?.map fun m =>
    let l := m.tick b.now b.assembly.allocator
    let b := b.setMemory (.delayed l.value.1)
    ({ b with assembly := { b.assembly with allocator := l.value.2 } } : Bench).noteAll l.notices

/-! ### The lanes -/

/-- Hand a completion to a lane. -/
def deliver (b : Bench) (port : Nat) (response : Response) : Except Failure Bool × Bench :=
  b.after (b.assembly.deliver port response)

/-- Tell a lane to try again. -/
def notifyRetry (b : Bench) (port : Nat) : Except Assertion Bench :=
  (b.lanes.lane port).map fun _ => { b with assembly := b.assembly.notifyRetry port }

/-- Tell a lane of an exclusive access. -/
def snoop (b : Bench) (port : Nat) (snoop : Snoop) : Except Failure Unit × Bench :=
  b.after (b.assembly.sendSnoop port snoop)

/-- Tell a lane whether to refuse completions. -/
def refuse (b : Bench) (port : Nat) (refuses : Bool) : Except Assertion Bench :=
  (b.lanes.setRefusal port refuses).map b.setLanes

/-- Let the generator of a lane have its turn.  The result has the number of a
pattern that it has just finished. -/
def drive (b : Bench) (port : Nat) : Except Assertion (Option Nat × Bench) := do
  let g ← b.lanes.generator? port
  let l ← g.tick b.now b.set b.assembly.allocator
  let (finished, g, allocator) := l.value
  let b := b.setLanes (b.lanes.setGenerator port g)
  return (finished,
    ({ b with assembly := { b.assembly with allocator } } : Bench).noteAll l.notices)

/-- Let the generator of a lane go on.  The result says whether it has finished
all patterns. -/
def advance (b : Bench) (port : Nat) : Except Assertion (Bool × Bench) := do
  let g ← b.lanes.generator? port
  if !g.atBarrier then throw .notAtBarrier
  let (allDone, g) := g.advance b.set
  return (allDone, b.setLanes (b.lanes.setGenerator port g))

/-- Take what the generator of a lane found wrong. -/
def takeFault (b : Bench) (port : Nat) : Except Assertion (Option GeneratorFault × Bench) := do
  let g ← b.lanes.generator? port
  let (fault, g) := g.takeFault
  return (fault, b.setLanes (b.lanes.setGenerator port g))

end Bench

end MemPort
