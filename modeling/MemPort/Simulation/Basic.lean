import MemPort.Allocator.Access
import MemPort.Settings
import MemPort.Traffic.Generator

/-!
# Simulations

A simulation wires the generators of traffic, an allocator and a memory together.

## Main definitions

* `SetupError` — why some settings make no simulation.
* `RunError` — why a simulation fails.
* `Simulation`, `Simulation.new` — the state, and how it starts.

## References

`SPEC_FULL.md`, section 10.7: how a simulation is wired.
-/

namespace MemPort

/-! ### What goes wrong -/

/-- Why some settings make no simulation. -/
inductive SetupError where
  /-- There are no ports. -/
  | noPorts
  /-- A region does not start or end with a line. -/
  | misaligned (lineSize : Nat)
  /-- The regions do not fit the memory. -/
  | outsideMemory (stop memoryBytes : Nat)
  /-- A pattern is none. -/
  | pattern (index : Nat) (e : PatternError)
  /-- A contract is broken. -/
  | broken (a : Assertion)
  deriving DecidableEq, Repr

/-- Why some settings make no simulation, with the causes behind it, outermost
first. -/
def SetupError.chain : SetupError → List String
  | noPorts => ["allocator needs at least one port"]
  | misaligned lineSize => [s!"traffic regions must be aligned to {lineSize} byte lines"]
  | outsideMemory stop memoryBytes =>
      [s!"traffic layout ends at {Hex.number stop} but backend memory is only " ++
        s!"{Hex.number memoryBytes} bytes"]
  | pattern index e => PatternSet.errorChain (index, e)
  | broken a => [a.message?.getD ""]

/-- Why a simulation fails. -/
inductive RunError where
  /-- The allocator would not fill the shared region. -/
  | preloadRefused (f : Failure)
  /-- The memory could not fill the shared region. -/
  | preloadFailed (f : AccessFailure)
  /-- The memory could not perform an access. -/
  | memoryFailed (cycle : Nat) (f : AccessFailure)
  /-- A step of the allocator did not complete. -/
  | allocatorFailed (cycle : Nat) (f : Failure)
  /-- A generator found something wrong. -/
  | trafficFailed (cycle : Nat) (f : GeneratorFault)
  /-- The allocator would not read the counter. -/
  | counterRefused (f : Failure)
  /-- The memory could not read the counter. -/
  | counterFailed (f : AccessFailure)
  /-- The counter was read in part only. -/
  | counterShort (length : Nat)
  /-- The counter does not tell the number of increments. -/
  | counterMismatch (counter successes : Nat)
  /-- Time is up. -/
  | unfinished (timeout outstanding : Nat)
  /-- A contract is broken, and the run is over. -/
  | broken (a : Assertion)
  deriving DecidableEq, Repr

/-- Why a simulation fails, with the causes behind it, outermost first. -/
def RunError.chain : RunError → List String
  | preloadRefused f => "failed to preload shared region" :: f.chain
  | preloadFailed f => "failed to preload shared region" :: f.chain
  | memoryFailed cycle f => s!"backend fault at cycle {cycle}" :: f.chain
  | allocatorFailed cycle f => s!"allocator failed at cycle {cycle}" :: f.chain
  | trafficFailed cycle f => [s!"traffic check failed at cycle {cycle}", f.message]
  | counterRefused f => "failed to read back atomic counter" :: f.chain
  | counterFailed f => "failed to read back atomic counter" :: f.chain
  | counterShort length => [s!"atomic counter read returned {length} bytes"]
  | counterMismatch counter successes =>
      [s!"atomic counter reads {counter} after {successes} successful store-conditionals"]
  | unfinished timeout outstanding =>
      [s!"simulation did not finish within {timeout} cycles " ++
        s!"({outstanding} request(s) outstanding)"]
  | broken a => [a.message?.getD ""]

/-- A failure of the allocator as a failure of the simulation; a broken contract
stays one. -/
def RunError.ofFailure (wrap : Failure → RunError) : Failure → RunError
  | .assertion a => .broken a
  | f => wrap f

/-! ### State -/

/-- Generators, an allocator and a memory, wired together. -/
structure Simulation where
  /-- The settings of the simulation itself. -/
  config : SimulationConfig
  /-- Whether no port starts a pattern before all have finished the one before. -/
  lockstep : Bool
  /-- Whether progress is printed. -/
  printLines : Bool
  /-- Where the regions lie. -/
  layout : RegionLayout
  /-- The number of ports. -/
  numPorts : Nat
  /-- The patterns. -/
  set : PatternSet
  /-- The allocator among the generators and the memory. -/
  assembly : Assembly (Generators × DelayedMemory)
  /-- The current cycle. -/
  cycle : Nat
  /-- The texts printed so far, newest first. -/
  output : List String

/-- The result of a part of a simulation.  Either way it leaves a simulation
behind. -/
abbrev Run (α : Type) := EStateM.Result RunError Simulation α

namespace Simulation

/-- Whether the start and the size of every region are multiples of the line
size. -/
def isAligned (layout : RegionLayout) (lineSize : Nat) : Bool :=
  [layout.base, layout.sharedBytes, layout.privateBytes].all (· % lineSize == 0)

/-- Refuse regions that do not fit the memory. -/
def checkLayout (s : Settings) : Except SetupError Unit :=
  match s.traffic.layout.checkedStop s.allocator.numPorts s.allocator.lineSize with
  | .error a => .error (.broken a)
  | .ok stop =>
      if s.memory.memoryBytes < stop then .error (.outsideMemory stop s.memory.memoryBytes)
      else .ok ()

/-- The conditions on the settings beyond those of the components. -/
def checkSettings (s : Settings) : Except SetupError Unit :=
  let lineSize := s.allocator.lineSize
  if s.allocator.numPorts = 0 then .error .noPorts
  else if lineSize = 0 then .error (.broken .divisionByZero)
  else if !isAligned s.traffic.layout lineSize then .error (.misaligned lineSize)
  else checkLayout s

/-- A simulation that has not begun, with a journal of the given level. -/
def new (s : Settings) (level : Level) : Except SetupError Simulation := do
  checkSettings s
  let numPorts := s.allocator.numPorts
  let set ← (PatternSet.ofConfig s.traffic numPorts).mapError fun e => .pattern e.1 e.2
  let lanes := (List.range numPorts).map fun port => Generator.new port numPorts s.traffic set
  let allocator ← (Allocator.new s.allocator).mapError .broken
  let memory ← (DelayedMemory.new s.memory).mapError .broken
  return {
    config := s.simulation
    lockstep := s.traffic.lockstep
    printLines := s.traffic.printLines
    layout := s.traffic.layout
    numPorts, set
    assembly := ⟨allocator, (⟨lanes⟩, memory), .start level⟩
    cycle := 0
    output := [] }

/-! ### Parts -/

/-- The generators, by port number. -/
def generators (s : Simulation) : List Generator := s.assembly.surroundings.1.lanes

/-- The memory. -/
def memory (s : Simulation) : DelayedMemory := s.assembly.surroundings.2

/-- Replace the generators. -/
def setGenerators (s : Simulation) (lanes : List Generator) : Simulation :=
  { s with assembly := { s.assembly with surroundings := (⟨lanes⟩, s.memory) } }

/-- Replace the memory. -/
def setMemory (s : Simulation) (memory : DelayedMemory) : Simulation :=
  { s with assembly := { s.assembly with surroundings := (s.assembly.surroundings.1, memory) } }

/-- Print a text about progress, if that is wanted. -/
def print (s : Simulation) (text : String) : Simulation :=
  if s.printLines then { s with output := text :: s.output } else s

/-- Hand over the texts printed so far, oldest first, and forget them. -/
def takeOutput (s : Simulation) : List String × Simulation :=
  (s.output.reverse, { s with output := [] })

/-- Whether all patterns are finished and nothing is under way. -/
def isFinished (s : Simulation) : Bool :=
  s.generators.all (·.isDone) && s.assembly.allocator.isIdle && s.memory.isIdle

end Simulation

end MemPort
