import MemPort.Simulation.Summary

/-!
# Running a simulation

Before the first cycle the shared region is filled.  In every cycle the memory
offers its answers, then the generators submit, then the allocator has its turn;
what the memory or a generator finds wrong ends the run.  At the end of a cycle,
generators that have finished a pattern go on, in lockstep only once all have
finished.

## Main definitions

* `Simulation.preload` — fill the shared region.
* `Simulation.step` — a cycle.
* `Simulation.simulate` — all cycles, up to the end of the traffic or the
  timeout.

## References

`SPEC_FULL.md`, section 10.7: the order of a cycle, the lockstep of the patterns
and the end of a run.
-/

namespace MemPort

/-- A text with blanks in front, up to a width. -/
def alignRight (width : Nat) (text : String) : String :=
  String.ofList (List.replicate (width - text.length) ' ') ++ text

namespace Simulation

/-! ### Before the first cycle -/

/-- Fill lines of memory, past the queues. -/
def fillLines (lineSize : Nat) (s : Simulation) : List Nat → Run Unit
  | [] => .ok () s
  | addr :: rest =>
      let txn := Transaction.store .write functionalId addr ((span addr lineSize).map fillByte)
      match s.assembly.accessFunctional 0 0 txn with
      | .error e m => .error (.ofFailure .preloadRefused e) { s with assembly := m }
      | .ok _ m => fillLines lineSize { s with assembly := m } rest

/-- The starts of the lines of the shared region. -/
def sharedLines (s : Simulation) (lineSize : Nat) : List Nat :=
  (List.range ((s.layout.sharedBytes + lineSize - 1) / lineSize)).map fun i =>
    s.layout.base + i * lineSize

/-- Fill the shared region. -/
def preload (s : Simulation) : Run Unit :=
  let lineSize := s.assembly.allocator.config.lineSize
  match s.fillLines lineSize (s.sharedLines lineSize) with
  | .error e s => .error e s
  | .ok () s =>
      match s.memory.takeFault with
      | (some f, memory) => .error (.preloadFailed f) (s.setMemory memory)
      | (none, _) => .ok () s

/-! ### The turns of a cycle -/

/-- The memory offers its answers. -/
def memoryTurn (s : Simulation) (now : Nat) : Run Unit :=
  let ticked := s.memory.tick now s.assembly.allocator
  let s := (s.setMemory ticked.value.1)
  let m := { s.assembly with allocator := ticked.value.2 }
  let s := { s with assembly := m.noteAll ticked.notices }
  match s.memory.takeFault with
  | (some f, memory) => .error (.memoryFailed now f) (s.setMemory memory)
  | (none, _) => .ok () s

/-- Say that a port has finished a pattern. -/
def checkpointLine (port : Nat) (name : String) (now : Nat) : String :=
  s!"[TRAFFIC] port {port} {name} finished at time {alignRight 10 (toString now)}"

/-- The generator of a port has its turn. -/
def generatorTurn (s : Simulation) (now port : Nat) : Run Unit :=
  match s.generators[port]? with
  | none => .ok () s
  | some g =>
      match g.tick now s.set s.assembly.allocator with
      | .error a => .error (.broken a) s
      | .ok l =>
          let (finished, g, allocator) := l.value
          let s := s.setGenerators (s.generators.set port g)
          let m := { s.assembly with allocator }
          let s := { s with assembly := m.noteAll l.notices }
          match finished with
          | none => .ok () s
          | some pattern =>
              .ok () (s.print (checkpointLine port ((s.set.name? pattern).getD "?") now))

/-- The generators of some ports have their turns. -/
def trafficTurn (now : Nat) (s : Simulation) : List Nat → Run Unit
  | [] => .ok () s
  | port :: rest =>
      match s.generatorTurn now port with
      | .error e s => .error e s
      | .ok () s => trafficTurn now s rest

/-- The allocator has its turn. -/
def allocatorTurn (s : Simulation) (now : Nat) : Run Unit :=
  match s.assembly.tick now with
  | .error e m => .error (.ofFailure (.allocatorFailed now) e) { s with assembly := m }
  | .ok () m => .ok () { s with assembly := m }

/-- Look for something that a generator found wrong; only the first is taken. -/
def checkTraffic (s : Simulation) (now : Nat) : Run Unit :=
  match s.generators.findIdx? (·.fault.isSome) with
  | none => .ok () s
  | some port =>
      match s.generators[port]?.map (·.takeFault) with
      | some (some f, g) =>
          .error (.trafficFailed now f) (s.setGenerators (s.generators.set port g))
      | _ => .ok () s

/-- The generator of a port goes on, if it has finished a pattern. -/
def passBarrier (s : Simulation) (port : Nat) : Simulation :=
  match s.generators[port]? with
  | none => s
  | some g =>
      if g.atBarrier then
        let (allDone, g) := g.advance s.set
        let s := s.setGenerators (s.generators.set port g)
        if allDone then s.print s!"[TRAFFIC] port {port} all done!" else s
      else s

/-- The generators that have finished a pattern go on, in lockstep only all
together. -/
def passBarriers (s : Simulation) : Simulation :=
  if s.lockstep && !s.generators.all (·.atBarrier) then s
  else (List.range s.generators.length).foldl passBarrier s

/-- A cycle. -/
def step (s : Simulation) (now : Nat) : Run Unit :=
  match s.memoryTurn now with
  | .error e s => .error e s
  | .ok () s =>
      match trafficTurn now s (List.range s.generators.length) with
      | .error e s => .error e s
      | .ok () s =>
          match s.allocatorTurn now with
          | .error e s => .error e s
          | .ok () s =>
              match s.checkTraffic now with
              | .error e s => .error e s
              | .ok () s => .ok () s.passBarriers

/-! ### All cycles -/

/-- Run cycles from `now` on, at most as many as given, until the traffic has
come to its end. -/
def runFrom (now : Nat) (s : Simulation) : Nat → Run Summary
  | 0 => .error (.unfinished s.config.timeout s.assembly.allocator.outstanding.size) s
  | remaining + 1 =>
      match ({ s with cycle := now } : Simulation).step now with
      | .error e s => .error e s
      | .ok () s =>
          if s.isFinished then
            ({ s with assembly := s.assembly.note (.finished now) } : Simulation).summarize
          else runFrom (now + 1) s remaining

/-- Run a simulation to its end or to its timeout. -/
def simulate (s : Simulation) : Run Summary :=
  match s.preload with
  | .error e s => .error e s
  | .ok () s => s.runFrom 0 s.config.timeout

end Simulation

end MemPort
