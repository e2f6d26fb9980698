import MemPort.Allocator.Config
import MemPort.DelayedMemory
import MemPort.Notice
import MemPort.Toml.Record
import MemPort.Traffic.Config

/-!
# The settings of a simulation

A configuration has four sections: the simulation itself, the allocator, the
memory and the traffic.  A section that is missing has its defaults, which
deserves a notice.  A section that cannot be read ends the reading.

## Main definitions

* `SimulationConfig` — the settings of the simulation itself.
* `Section` — the four sections; `SectionError` — the one that cannot be
  read.
* `AllocatorConfig.ofToml?` and its like — a section as a value of the
  configuration language.
* `Settings`, `Settings.read` — all sections.

## References

`SPEC_FULL.md`, section 10.4: the sections of a configuration and their
defaults.
-/

namespace MemPort

/-- The settings of the simulation itself. -/
structure SimulationConfig where
  /-- How much is reported. -/
  logLevel : Nat := 0
  /-- The number of cycles after which a simulation is given up. -/
  timeout : Nat := 10000000
  /-- Where the summary goes, if not to the output. -/
  statsPath : Option String := none
  deriving DecidableEq, Repr, Inhabited

/-- The sections of a configuration. -/
inductive Section where
  /-- The simulation itself. -/
  | simulation
  /-- The allocator. -/
  | allocator
  /-- The memory. -/
  | memory
  /-- The traffic. -/
  | traffic
  deriving DecidableEq, Repr, Inhabited

namespace Section

/-- The name of a section in a configuration. -/
def name : Section → String
  | simulation => "sim"
  | allocator => "allocator"
  | memory => "backend"
  | traffic => "traffic"

/-- What a section is called when it cannot be read. -/
def typeName : Section → String
  | simulation => "cachealloc::sim::config::SimConfig"
  | allocator => "cachealloc::alloc::config::AllocatorConfig"
  | memory => "cachealloc::sim::backend::BackendConfig"
  | traffic => "cachealloc::traffic::config::TrafficConfig"

end Section

/-- A section that cannot be read. -/
structure SectionError where
  /-- The section. -/
  part : Section
  deriving DecidableEq, Repr

/-- The wording of a section that cannot be read. -/
def SectionError.message (e : SectionError) : String := s!"cannot deserialize {e.part.typeName}"

/-! ### Sections as values -/

open Toml

/-- The settings of the simulation itself. -/
def SimulationConfig.ofToml? (v : Toml) : Option SimulationConfig := do
  let r ← record? ["log_level", "timeout", "stats_json"] v
  let d : SimulationConfig := {}
  return {
    logLevel := ← field? r "log_level" word? d.logLevel
    timeout := ← field? r "timeout" word? d.timeout
    statsPath := ← field? r "stats_json" (present? text?) d.statsPath }

/-- The settings of an allocator. -/
def AllocatorConfig.ofToml? (v : Toml) : Option AllocatorConfig := do
  let r ← record? ["num_ports", "request_latency", "port_request_latency", "response_latency",
    "line_size", "enable_coalescing", "max_issue_per_cycle", "lock_timeout",
    "progress_check_period", "check_global_progress"] v
  let d : AllocatorConfig := {}
  return {
    numPorts := ← field? r "num_ports" word? d.numPorts
    requestLatency := ← field? r "request_latency" word? d.requestLatency
    portRequestLatency :=
      ← field? r "port_request_latency" (present? (list? word?)) d.portRequestLatency
    responseLatency := ← field? r "response_latency" word? d.responseLatency
    lineSize := ← field? r "line_size" halfWord? d.lineSize
    enableCoalescing := ← field? r "enable_coalescing" truth? d.enableCoalescing
    maxIssuePerCycle := ← field? r "max_issue_per_cycle" word? d.maxIssuePerCycle
    lockTimeout := ← field? r "lock_timeout" word? d.lockTimeout
    progressCheckPeriod := ← field? r "progress_check_period" word? d.progressCheckPeriod
    checkGlobalProgress := ← field? r "check_global_progress" truth? d.checkGlobalProgress }

/-- The settings of a memory. -/
def MemoryConfig.ofToml? (v : Toml) : Option MemoryConfig := do
  let r ← record? ["latency", "capacity", "memory_bytes", "reservation_bytes"] v
  let d : MemoryConfig := {}
  return {
    latency := ← field? r "latency" word? d.latency
    capacity := ← field? r "capacity" word? d.capacity
    memoryBytes := ← field? r "memory_bytes" word? d.memoryBytes
    reservationBytes := ← field? r "reservation_bytes" word? d.reservationBytes }

/-- Where the regions lie. -/
def RegionLayout.ofToml? (v : Toml) : Option RegionLayout := do
  let r ← record? ["base", "shared_bytes", "private_bytes"] v
  let d : RegionLayout := {}
  return {
    base := ← field? r "base" word? d.base
    sharedBytes := ← field? r "shared_bytes" word? d.sharedBytes
    privateBytes := ← field? r "private_bytes" word? d.privateBytes }

/-- A pattern. -/
def PatternSpec.ofToml? (v : Toml) : Option PatternSpec := do
  let r ← record? ["name", "kind", "op", "region", "req_bytes", "step_stride", "port_stride",
    "random_min", "random_max", "seed", "within_bytes"] v
  let d : PatternSpec := {}
  return {
    name := ← field? r "name" text? d.name
    kind := ← field? r "kind" text? d.kind
    op := ← field? r "op" text? d.op
    region := ← field? r "region" (present? text?) d.region
    reqBytes := ← field? r "req_bytes" halfWord? d.reqBytes
    stepStride := ← field? r "step_stride" halfWord? d.stepStride
    portStride := ← field? r "port_stride" halfWord? d.portStride
    randomMin := ← field? r "random_min" halfWord? d.randomMin
    randomMax := ← field? r "random_max" halfWord? d.randomMax
    seed := ← field? r "seed" word? d.seed
    withinBytes := ← field? r "within_bytes" (present? word?) d.withinBytes }

/-- A record of a single field. -/
def singleField? (key : String) (read : Toml → Option α) (default : α) (v : Toml) :
    Option α := do
  field? (← record? [key] v) key read default

/-- The settings of the traffic. -/
def TrafficConfig.ofToml? (v : Toml) : Option TrafficConfig := do
  let r ← record? ["lockstep_patterns", "reqs_per_pattern", "address", "issue", "logging",
    "patterns"] v
  let d : TrafficConfig := {}
  return {
    lockstep := ← field? r "lockstep_patterns" truth? d.lockstep
    reqsPerPattern := ← field? r "reqs_per_pattern" halfWord? d.reqsPerPattern
    layout := ← field? r "address" RegionLayout.ofToml? d.layout
    maxInflight :=
      ← field? r "issue" (singleField? "max_inflight_per_port" word? d.maxInflight) d.maxInflight
    printLines :=
      ← field? r "logging" (singleField? "print_traffic_lines" truth? d.printLines) d.printLines
    patterns := ← field? r "patterns" (list? PatternSpec.ofToml?) d.patterns }

/-! ### Reading sections -/

/-- Read a section, or take its defaults if it is missing. -/
def readSection (part : Section) (read : Toml → Option α) (default : α) :
    Option Toml → Logged (Except SectionError α)
  | none => ⟨.ok default, [.sectionMissing]⟩
  | some v =>
      match read v with
      | some a => .quiet (.ok a)
      | none => .quiet (.error ⟨part⟩)

/-- All settings. -/
structure Settings where
  /-- Those of the simulation itself. -/
  simulation : SimulationConfig := {}
  /-- Those of the allocator. -/
  allocator : AllocatorConfig := {}
  /-- Those of the memory. -/
  memory : MemoryConfig := {}
  /-- Those of the traffic. -/
  traffic : TrafficConfig := {}
  deriving DecidableEq, Repr, Inhabited

namespace Settings

/-- Go on with a section that was read. -/
def withSection (l : Logged (Except SectionError α)) (f : α → Logged (Except SectionError β)) :
    Logged (Except SectionError β) :=
  l.andThen fun
    | .ok a => f a
    | .error e => .quiet (.error e)

/-- Read the sections of a configuration, in order, up to one that cannot be
read. -/
def read (fields : Toml.Fields) : Logged (Except SectionError Settings) :=
  let find (part : Section) := get? fields part.name
  withSection (readSection .simulation SimulationConfig.ofToml? {} (find .simulation)) fun sim =>
  withSection (readSection .allocator AllocatorConfig.ofToml? {} (find .allocator)) fun alloc =>
  withSection (readSection .memory MemoryConfig.ofToml? {} (find .memory)) fun memory =>
  withSection (readSection .traffic TrafficConfig.ofToml? {} (find .traffic)) fun traffic =>
  .quiet (.ok ⟨sim, alloc, memory, traffic⟩)

end Settings

end MemPort
