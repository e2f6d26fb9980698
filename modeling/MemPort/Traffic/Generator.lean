import MemPort.Allocator.Basic
import MemPort.Memory
import MemPort.Surroundings
import MemPort.Traffic.Pattern

/-!
# Generators of traffic

A generator works through the patterns on one port of an allocator and checks
every completion.  A load of the shared region must return what the region was
filled with; a load or a swap of the port's private region must return what the
port itself stored there last.  No port touches the private region of another,
so what a completion must return is known when the access is made.

In a pattern that increments the counter a generator alternates between a
load-locked and a store-conditional of the value it loaded, plus one; a
store-conditional that fails starts over.

## Main definitions

* `Generator`, `Generator.new` — the state, and how it starts.
* `Generator.tick` — its part of a cycle: at most one submission.
* `Generator.receive`, `Generator.retried`, `Generator.snooped` — what comes
  back from the allocator.
* `Generator.advance` — the next pattern, once all ports may go on.
* `GeneratorFault` — what a generator finds wrong.

## References

`SPEC_FULL.md`, section 10.7: the synthetic requestor, its retry protocol and
its checks.
-/

namespace MemPort

/-- What a completion must bring. -/
inductive Expectation where
  /-- Exactly these bytes. -/
  | data (bytes : Bytes)
  /-- Nothing in particular. -/
  | acknowledgement
  /-- The value of the counter. -/
  | counterValue
  /-- The outcome of an increment. -/
  | incrementOutcome
  deriving DecidableEq, Repr

/-- An access whose completion has not come back. -/
structure Awaited where
  /-- Its address. -/
  addr : Nat
  /-- What its completion must bring. -/
  expectation : Expectation
  /-- When it was made. -/
  issuedAt : Nat
  deriving DecidableEq, Repr

/-- What a generator is doing. -/
inductive Phase where
  /-- It works on a pattern. -/
  | running
  /-- It has finished a pattern and waits. -/
  | atBarrier
  /-- It has finished all patterns. -/
  | done
  deriving DecidableEq, Repr

/-- What a generator finds wrong. -/
inductive GeneratorFault where
  /-- A completion for an access that is not awaited. -/
  | unknownTag (port tag : Nat)
  /-- A completion with other bytes than expected. -/
  | wrongData (port : Nat) (cmd : Command) (addr : Nat) (returned expected : Bytes)
  /-- A load-locked that does not bring a whole counter. -/
  | shortLoad (port addr length : Nat)
  /-- Leave to repeat a submission, where none was refused. -/
  | spuriousRetry (port : Nat)
  /-- A store of another port into the private region. -/
  | foreignStore (port source addr : Nat)
  deriving DecidableEq, Repr

/-- The wording of what a generator finds wrong. -/
def GeneratorFault.message : GeneratorFault → String
  | unknownTag port tag => s!"port {port}: completion for unknown tag {tag}"
  | wrongData port cmd addr returned expected =>
      s!"port {port}: {cmd.label} @ {Hex.number addr} returned {Hex.byteList returned}, " ++
        s!"expected {Hex.byteList expected}"
  | shortLoad port addr length =>
      s!"port {port}: load-locked @ {Hex.number addr} returned {length} bytes"
  | spuriousRetry port => s!"port {port}: retry without a refused request"
  | foreignStore port source addr =>
      s!"port {port}: port {source} stored into its private region @ {Hex.number addr}"

/-- What a generator counts. -/
structure GeneratorCounters where
  /-- Submissions that were taken. -/
  issued : Nat := 0
  /-- Completions. -/
  completed : Nat := 0
  /-- Submissions that were refused. -/
  rejects : Nat := 0
  /-- Leaves to repeat a submission. -/
  retries : Nat := 0
  /-- Snoops. -/
  snoops : Nat := 0
  /-- Store-conditionals that took effect. -/
  scSuccesses : Nat := 0
  /-- Store-conditionals that did not. -/
  scFailures : Nat := 0
  /-- The cycles from access to completion, together. -/
  totalLatency : Nat := 0
  /-- The most cycles from access to completion. -/
  maxLatency : Nat := 0
  /-- When all patterns were finished. -/
  finishedAt : Option Nat := none
  deriving DecidableEq, Repr, Inhabited

/-- A generator of traffic on one port. -/
structure Generator where
  /-- The port. -/
  port : Nat
  /-- The number of ports. -/
  numPorts : Nat
  /-- Where the regions lie. -/
  layout : RegionLayout
  /-- The accesses that may be in flight; at least one. -/
  maxInflight : Nat
  /-- The current cycle. -/
  now : Nat
  /-- The number of the current pattern. -/
  pattern : Nat
  /-- The number of the next access in the pattern. -/
  reqIndex : Nat
  /-- The tag of the next access. -/
  nextTag : Nat
  /-- What the generator is doing. -/
  phase : Phase
  /-- The access that was made but not taken. -/
  pending : Option Transaction
  /-- Whether the generator waits for leave to repeat it. -/
  blocked : Bool
  /-- The accesses whose completions have not come back, by tag. -/
  inflight : AscMap Awaited
  /-- What the private region must hold. -/
  shadow : ByteMap
  /-- The value that the next increment stores. -/
  scValue : Option Nat
  /-- The first thing found wrong, until it is taken. -/
  fault : Option GeneratorFault
  /-- What has been counted. -/
  stats : GeneratorCounters

namespace Generator

/-- The bytes of the counter. -/
def counterBytes : Nat := 4

/-- A generator that is to work through some patterns. -/
def new (port numPorts : Nat) (config : TrafficConfig) (set : PatternSet) : Generator where
  port := port
  numPorts := numPorts
  layout := config.layout
  maxInflight := max config.maxInflight 1
  now := 0
  pattern := 0
  reqIndex := 0
  nextTag := 0
  phase := if set.patterns.isEmpty then .done else .running
  pending := none
  blocked := false
  inflight := ∅
  shadow := .zero
  scValue := none
  fault := none
  stats := {}

/-- Whether all patterns are finished. -/
def isDone (g : Generator) : Bool := g.phase == .done

/-- Whether a pattern is finished and the generator waits. -/
def atBarrier (g : Generator) : Bool := g.phase == .atBarrier

/-- Change the counters. -/
def count (g : Generator) (f : GeneratorCounters → GeneratorCounters) : Generator :=
  { g with stats := f g.stats }

/-- Hand over the first thing found wrong, and forget it. -/
def takeFault (g : Generator) : Option GeneratorFault × Generator :=
  (g.fault, { g with fault := none })

/-- Report something wrong, and keep it unless there is an earlier one. -/
def report (g : Generator) (f : GeneratorFault) : Logged Generator :=
  ⟨{ g with fault := g.fault.or (some f) }, [.generatorFault g.port f.message]⟩

/-- Move past a finished pattern.  The result says whether it was the last. -/
def advance (g : Generator) (set : PatternSet) : Bool × Generator :=
  let g := { g with pattern := g.pattern + 1, reqIndex := 0 }
  if set.length ≤ g.pattern then
    let g := { g with phase := .done }
    (true, g.count fun c => { c with finishedAt := some g.now })
  else (false, { g with phase := .running })

/-! ### Making accesses -/

/-- Wait for the completion of an access, which is made now. -/
def await (g : Generator) (txn : Transaction) (expectation : Expectation) :
    Transaction × Generator :=
  let awaited : Awaited := ⟨txn.addr, expectation, g.now⟩
  ({ txn with issuedAt := g.now }, { g with
    nextTag := g.nextTag + 1
    inflight := g.inflight.insert txn.tag awaited })

/-- The next access to the counter at an address: a store-conditional if a value
has been loaded, or else a load-locked. -/
def makeIncrement (g : Generator) (addr : Nat) : Transaction × Generator :=
  match g.scValue with
  | some value =>
      let g := { g with scValue := none }
      g.await (.store .storeCond g.nextTag addr (wordBytes value)) .incrementOutcome
  | none => g.await (.load .loadLocked g.nextTag addr counterBytes) .counterValue

/-- The next access to the counter.  Only one is in flight. -/
def nextIncrement (g : Generator) : Except Assertion (Option (Transaction × Generator)) :=
  if !g.inflight.isEmpty then .ok none
  else
    (g.layout.checkedStop g.numPorts 0).map fun addr => some (g.makeIncrement addr)

/-- What memory holds at consecutive addresses of a region, as far as this port
is concerned. -/
def expected (g : Generator) (region : Region) (addr size : Nat) : Bytes :=
  match region with
  | .sharedRegion => (span addr size).map fillByte
  | .privateRegion => g.shadow.load addr size

/-- The bytes that a port stores under a tag. -/
def payload (port tag size : Nat) : Bytes :=
  (List.range size).map fun i => lowByte (tag + i) ^^^ lowByte (port * 0x11)

/-- Where the next access of a pattern goes. -/
def target (g : Generator) (region : Region) (offset : Nat) : Nat :=
  match region with
  | .sharedRegion => g.layout.base + offset
  | .privateRegion => g.layout.privateBase g.port + offset

/-- Remember what a store leaves in the private region. -/
def remember (g : Generator) (addr : Nat) (data : Bytes) : Generator :=
  { g with shadow := g.shadow.store addr data }

/-- Make an access of a pattern at an address. -/
def makeAccess (g : Generator) (p : Pattern) (addr : Nat) : Transaction × Generator :=
  let data := payload g.port g.nextTag p.reqBytes
  match p.op with
  | .read =>
      g.await (.load .read g.nextTag addr p.reqBytes) (.data (g.expected p.region addr p.reqBytes))
  | .write => (g.remember addr data).await (.store .write g.nextTag addr data) .acknowledgement
  | .swap =>
      -- the bytes before the swap, not the ones that it leaves
      let previous := g.expected .privateRegion addr p.reqBytes
      (g.remember addr data).await (.store .swap g.nextTag addr data) (.data previous)

/-- The last address that is computed for an access: the one behind its bytes,
and for a store, whose bytes are walked through one by one, the one after. -/
def lastComputed (p : Pattern) (addr : Nat) : Nat :=
  match p.op with
  | .read => addr + p.reqBytes
  | .write | .swap => addr + p.reqBytes + 1

/-- Make the access of a pattern at a place of its region.  All addresses on the
way have to be words. -/
def makeAt (g : Generator) (p : Pattern) (offset : Nat) :
    Except Assertion (Transaction × Generator) :=
  let addr := g.target p.region offset
  if maxWord < lastComputed p addr then .error .overflow
  else
    let made := g.makeAccess p addr
    .ok (made.1, { made.2 with reqIndex := made.2.reqIndex + 1 })

/-- The next access of a pattern, if there is room for one more in flight. -/
def nextAccess (g : Generator) (set : PatternSet) (p : Pattern) :
    Except Assertion (Option (Transaction × Generator)) :=
  if g.maxInflight ≤ g.inflight.size then .ok none
  else
    match set.offset g.pattern g.reqIndex g.port with
    | .error a => .error a
    | .ok none => .ok none
    | .ok (some offset) => (g.makeAt p offset).map some

/-! ### The part of a cycle -/

/-- Submit an access.  A refused one is kept until there is leave to repeat it. -/
def submit (g : Generator) (txn : Transaction) (a : Allocator) :
    Except Assertion (Logged (Generator × Allocator)) :=
  (a.submit g.now g.port txn).map fun l => l.andThen fun r =>
    if r.1 then
      let g := { g with pending := none }
      .quiet (g.count fun c => { c with issued := c.issued + 1 }, r.2)
    else
      let g := { g with pending := some txn, blocked := true }
      ⟨(g.count fun c => { c with rejects := c.rejects + 1 }, r.2),
        [.tagRefused g.port txn.tag]⟩

/-- Submit an access, if there is one. -/
def submit? (g : Generator) (txn : Option Transaction) (a : Allocator) :
    Except Assertion (Logged (Option Nat × Generator × Allocator)) :=
  match txn with
  | none => .ok (.quiet (none, g, a))
  | some txn => (g.submit txn a).map fun l => l.map fun r => (none, r.1, r.2)

/-- Work on a pattern: finish it once all its accesses have come back, or submit
the next. -/
def work (g : Generator) (set : PatternSet) (p : Pattern) (a : Allocator) :
    Except Assertion (Logged (Option Nat × Generator × Allocator)) :=
  -- what was refused goes before anything new
  if g.pending.isSome then g.submit? g.pending a
  else if set.reqsPerPattern ≤ g.reqIndex then
    if g.inflight.isEmpty then
      .ok (.quiet (some g.pattern, { g with phase := .atBarrier }, a))
    else .ok (.quiet (none, g, a))
  else
    match if p.isAtomic then g.nextIncrement else g.nextAccess set p with
    | .error e => .error e
    | .ok none => .ok (.quiet (none, g, a))
    | .ok (some (txn, g)) => g.submit? (some txn) a

/-- The generator's part of a cycle.  The result has the number of a pattern
that it has just finished. -/
def tick (g : Generator) (now : Nat) (set : PatternSet) (a : Allocator) :
    Except Assertion (Logged (Option Nat × Generator × Allocator)) :=
  let g := { g with now }
  if g.phase ≠ .running || g.blocked then .ok (.quiet (none, g, a))
  else
    match set.patterns[g.pattern]? with
    | none => .ok (.quiet (none, { g with phase := .done }, a))
    | some p => g.work set p a

/-! ### What comes back -/

/-- Judge a completion by what it must bring. -/
def judge (g : Generator) (awaited : Awaited) (response : Response) : Logged Generator :=
  match awaited.expectation with
  | .data bytes =>
      if response.data = bytes then .quiet g
      else g.report (.wrongData g.port response.cmd awaited.addr response.data bytes)
  | .acknowledgement => .quiet g
  | .counterValue =>
      if counterBytes ≤ response.data.length then
        let value := wordOfBytes (response.data.take counterBytes)
        .quiet { g with scValue := some ((value + 1) % 1 <<< 32) }
      else g.report (.shortLoad g.port awaited.addr response.data.length)
  | .incrementOutcome =>
      if response.success then
        let g := { g with reqIndex := g.reqIndex + 1 }
        .quiet (g.count fun c => { c with scSuccesses := c.scSuccesses + 1 })
      else .quiet (g.count fun c => { c with scFailures := c.scFailures + 1 })

/-- A completion comes back.  The sum of all latencies has to stay a word. -/
def receive (g : Generator) (response : Response) : Attempt Generator Unit :=
  match g.inflight.get? response.tag with
  | none => (g.report (.unknownTag g.port response.tag)).map fun g => (.ok (), g)
  | some awaited =>
      let latency := g.now - awaited.issuedAt
      let g := { g with inflight := g.inflight.erase response.tag }
      let g := g.count fun c => { c with completed := c.completed + 1 }
      match addWord? g.stats.totalLatency latency with
      | none => .quiet (.error .overflow, g)
      | some totalLatency =>
          let g := g.count fun c => { c with
            totalLatency
            maxLatency := max c.maxLatency latency }
          (g.judge awaited response).map fun g => (.ok (), g)

/-- There is leave to repeat a refused submission. -/
def retried (g : Generator) : Logged Generator :=
  if g.blocked then
    let g := { g with blocked := false }
    .quiet (g.count fun c => { c with retries := c.retries + 1 })
  else g.report (.spuriousRetry g.port)

/-- Another lane made an exclusive access.  It must not touch this port's
private region, which has to end at a word. -/
def snooped (g : Generator) (snoop : Snoop) : Attempt Generator Unit :=
  let g := g.count fun c => { c with snoops := c.snoops + 1 }
  if maxWord < g.layout.privateBase (g.port + 1) then .quiet (.error .overflow, g)
  else if g.layout.owns g.port snoop.addr then
    (g.report (.foreignStore g.port snoop.source snoop.addr)).map fun g => (.ok (), g)
  else .quiet (.ok (), g)

end Generator

/-! ### Generators as requestors -/

/-- The generators of all ports, by port number. -/
structure Generators where
  /-- The generators. -/
  lanes : List Generator

namespace Generators

/-- Let the generator of a lane act, which has to exist. -/
def act (s : Generators) (lane : Nat) (f : Generator → Attempt Generator Unit) :
    Attempt Generators Unit :=
  match s.lanes[lane]? with
  | none => .quiet (.error .indexOutOfRange, s)
  | some g => (f g).map fun r => (r.1, ⟨s.lanes.set lane r.2⟩)

/-- Give the generator of a lane leave to repeat a submission. -/
def retried (s : Generators) (lane : Nat) : Logged Generators :=
  match s.lanes[lane]? with
  | none => .quiet s
  | some g => g.retried.map fun g => ⟨s.lanes.set lane g⟩

instance : Requestors Generators where
  lanes s := s.lanes.length
  deliver lane response s :=
    (s.act lane (·.receive response)).map fun r => (r.1.map fun _ => true, r.2)
  notifyRetry lane s := s.retried lane
  receiveSnoop lane snoop s := s.act lane (·.snooped snoop)

end Generators

end MemPort
