import MemPort.Traffic.Generator

/-!
# Lanes of a test bench

A lane stands in for a requestor.  It takes completions unless it is told to
refuse them, and hands on all calls to a generator of traffic if it has one.

## Main definitions

* `Lane`, `Lanes` — one lane, and all of them.
* `Lanes.plain`, `Lanes.withTraffic` — lanes without generators, and lanes
  with one each.
* `Lanes.setRefusal` — tell a lane whether to refuse completions.
* `Lane.handOn` — what a lane does with a call.

## References

`SPEC_FULL.md`, section 10.8: requestors for scenarios.
-/

namespace MemPort

/-- A stand-in for a requestor. -/
structure Lane where
  /-- Whether completions are refused. -/
  refuses : Bool
  /-- The generator behind the lane. -/
  generator : Option Generator

namespace Lane

/-- Hand a call on to the generator, if there is one. -/
def handOn (l : Lane) (f : Generator → Attempt Generator Unit) : Attempt Lane Unit :=
  match l.generator with
  | none => .quiet (.ok (), l)
  | some g => (f g).map fun r => (r.1, { l with generator := some r.2 })

/-- Take a completion, unless it is refused. -/
def deliver (l : Lane) (response : Response) : Attempt Lane Bool :=
  if l.refuses then .quiet (.ok false, l)
  else (l.handOn (·.receive response)).map fun r => (r.1.map fun _ => true, r.2)

/-- Give the generator leave to repeat a submission, if there is one. -/
def retried (l : Lane) : Logged Lane :=
  match l.generator with
  | none => .quiet l
  | some g => g.retried.map fun g => { l with generator := some g }

end Lane

/-- The lanes of a bench, by number. -/
structure Lanes where
  /-- The lanes. -/
  lanes : List Lane

namespace Lanes

/-- Lanes without generators. -/
def plain (count : Nat) : Lanes := ⟨List.replicate count ⟨false, none⟩⟩

/-- Lanes with generators that work through some patterns on the ports of an
allocator. -/
def withTraffic (count numPorts : Nat) (config : TrafficConfig) (set : PatternSet) : Lanes :=
  ⟨(List.range count).map fun port =>
    ⟨false, some (Generator.new port numPorts config set)⟩⟩

/-- Replace a lane. -/
def set (s : Lanes) (port : Nat) (l : Lane) : Lanes := ⟨s.lanes.set port l⟩

/-- A lane, which has to exist. -/
def lane (s : Lanes) (port : Nat) : Except Assertion Lane :=
  match s.lanes[port]? with
  | none => .error .indexOutOfRange
  | some l => .ok l

/-- Tell a lane whether to refuse completions. -/
def setRefusal (s : Lanes) (port : Nat) (refuses : Bool) : Except Assertion Lanes :=
  (s.lane port).map fun l => s.set port { l with refuses }

/-- The generator of a lane. -/
def generator? (s : Lanes) (port : Nat) : Except Assertion Generator :=
  match s.lanes[port]?.bind (·.generator) with
  | none => .error .indexOutOfRange
  | some g => .ok g

/-- Replace the generator of a lane. -/
def setGenerator (s : Lanes) (port : Nat) (g : Generator) : Lanes :=
  match s.lanes[port]? with
  | none => s
  | some l => s.set port { l with generator := some g }

/-- Let a lane act, which has to exist. -/
def act {α : Type} (s : Lanes) (port : Nat) (f : Lane → Attempt Lane α) : Attempt Lanes α :=
  match s.lanes[port]? with
  | none => .quiet (.error .indexOutOfRange, s)
  | some l => (f l).map fun r => (r.1, s.set port r.2)

/-- Give the generator of a lane leave to repeat a submission. -/
def retried (s : Lanes) (port : Nat) : Logged Lanes :=
  match s.lanes[port]? with
  | none => .quiet s
  | some l => l.retried.map (s.set port)

instance : Requestors Lanes where
  lanes s := s.lanes.length
  deliver port response s := s.act port (·.deliver response)
  notifyRetry port s := s.retried port
  receiveSnoop port snoop s := s.act port (·.handOn (·.snooped snoop))

end Lanes

end MemPort
