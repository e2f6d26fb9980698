import MemPort.Failure

/-!
# The configuration of an allocator

## Main definitions

* `AllocatorConfig` — the ten settings, with their defaults.
* `AllocatorConfig.check` — the conditions an allocator needs, in the order in
  which they are reported.
* `AllocatorConfig.portLatency` — the admission latency of a port.

## References

`SPEC_FULL.md`, section 10.4: the settings and their defaults; section 10.2: the
mistakes that are caught at construction.
-/

namespace MemPort

/-- The settings of an allocator. -/
structure AllocatorConfig where
  /-- The number of requestor ports. -/
  numPorts : Nat := 1
  /-- The admission latency of a port that has none of its own. -/
  requestLatency : Nat := 1
  /-- The admission latencies of the ports, if they differ. -/
  portRequestLatency : Option (List Nat) := none
  /-- How long an answer waits before it is drained. -/
  responseLatency : Nat := 0
  /-- The bytes of a line. -/
  lineSize : Nat := 64
  /-- Whether loads of one line share an access. -/
  enableCoalescing : Bool := false
  /-- How many requests may go out in a cycle. -/
  maxIssuePerCycle : Nat := 1
  /-- How long a lock lives. -/
  lockTimeout : Nat := 30
  /-- How often progress is checked, and how long a transaction may wait. -/
  progressCheckPeriod : Nat := 100000
  /-- Whether it is a failure when nothing at all happens for a period. -/
  checkGlobalProgress : Bool := false
  deriving DecidableEq, Repr, Inhabited

namespace AllocatorConfig

/-- The conditions an allocator needs; the first that fails is reported. -/
def check (c : AllocatorConfig) : Except Assertion Unit := do
  if c.numPorts = 0 then throw .portCount
  if !isPowerOfTwo c.lineSize then throw (.lineSize c.lineSize)
  if c.maxIssuePerCycle = 0 then throw .issueBudget
  if c.lockTimeout = 0 then throw .lockTimeout
  if c.progressCheckPeriod = 0 then throw .progressPeriod
  match c.portRequestLatency with
  | none => return ()
  | some latencies => if latencies.length ≠ c.numPorts then throw .portLatencies

/-- What settings that are accepted are like. -/
theorem of_check {c : AllocatorConfig} (h : c.check = .ok ()) :
    0 < c.numPorts ∧ isPowerOfTwo c.lineSize = true ∧ 0 < c.maxIssuePerCycle ∧
    0 < c.lockTimeout ∧
      0 < c.progressCheckPeriod := by
  unfold check at h
  by_cases hports : c.numPorts = 0
  · rw [if_pos hports] at h
    cases h
  rw [if_neg hports] at h
  by_cases hline : (!isPowerOfTwo c.lineSize) = true
  · rw [if_pos hline] at h
    cases h
  rw [if_neg hline] at h
  by_cases hissue : c.maxIssuePerCycle = 0
  · rw [if_pos hissue] at h
    cases h
  rw [if_neg hissue] at h
  by_cases hlock : c.lockTimeout = 0
  · rw [if_pos hlock] at h
    cases h
  rw [if_neg hlock] at h
  by_cases hperiod : c.progressCheckPeriod = 0
  · rw [if_pos hperiod] at h
    cases h
  rw [Bool.not_eq_true', Bool.not_eq_false] at hline
  exact ⟨Nat.pos_of_ne_zero hports, hline, Nat.pos_of_ne_zero hissue, Nat.pos_of_ne_zero hlock,
    Nat.pos_of_ne_zero hperiod⟩

/-- The admission latency of a port: its own, or the common one. -/
def portLatency (c : AllocatorConfig) (port : Nat) : Nat :=
  ((c.portRequestLatency.bind fun latencies => latencies[port]?)).getD c.requestLatency

/-- The start of the line that holds an address. -/
def lineOf (c : AllocatorConfig) (addr : Nat) : Nat := blockBase addr c.lineSize

end AllocatorConfig

end MemPort
