import MemPort.Failure

/-!
# The configuration of the traffic

What the generators of synthetic traffic are told: where their regions lie, how
hard they push, and which patterns of accesses they run one after the other.

Memory is laid out in three parts: a shared region that is filled before the
traffic starts and is only read, a private region for every port, and a line
with a counter that all ports increment.

## Main definitions

* `PatternSpec` — a pattern as it is written in a configuration.
* `RegionLayout` — where the regions lie; `privateBase`, `counterAddr`,
  `stop`, `owns`.
* `TrafficConfig` — all settings.
* `fillByte` — what the shared region holds.

## References

`SPEC_FULL.md`, section 10.7: the layout of the regions; section 10.4: the
settings of the traffic.
-/

namespace MemPort

/-- A pattern as it is written in a configuration. -/
structure PatternSpec where
  /-- The name, or nothing for a name made from the settings. -/
  name : String := ""
  /-- How addresses follow each other. -/
  kind : String := ""
  /-- What is done. -/
  op : String := "read"
  /-- The region, or nothing for the one that suits the access. -/
  region : Option String := none
  /-- The bytes of an access. -/
  reqBytes : Nat := 4
  /-- The distance between the accesses of one port. -/
  stepStride : Nat := 1
  /-- The distance between the ports. -/
  portStride : Nat := 1
  /-- The first of the slots that are drawn from. -/
  randomMin : Nat := 0
  /-- The slot behind the last that is drawn from, or zero for all slots of the
  window. -/
  randomMax : Nat := 0
  /-- The seed of what is drawn. -/
  seed : Nat := 0
  /-- The bytes of the region that are used. -/
  withinBytes : Option Nat := none
  deriving DecidableEq, Repr, Inhabited

/-- Where the regions lie. -/
structure RegionLayout where
  /-- The start of the shared region. -/
  base : Nat := 0x1000
  /-- The bytes of the shared region. -/
  sharedBytes : Nat := 64 * 1024
  /-- The bytes of a private region. -/
  privateBytes : Nat := 4 * 1024
  deriving DecidableEq, Repr, Inhabited

namespace RegionLayout

/-- The start of the private region of a port: behind the shared region and the
private regions of the ports before. -/
def privateBase (l : RegionLayout) (port : Nat) : Nat :=
  l.base + l.sharedBytes + port * l.privateBytes

/-- The address of the counter: behind the private regions of all ports. -/
def counterAddr (l : RegionLayout) (numPorts : Nat) : Nat := l.privateBase numPorts

/-- The address behind the line of the counter, which is the last. -/
def stop (l : RegionLayout) (numPorts lineSize : Nat) : Nat := l.counterAddr numPorts + lineSize

/-- The address behind the line of the counter, if it is a word; then so are all
addresses before it. -/
def checkedStop (l : RegionLayout) (numPorts lineSize : Nat) : Except Assertion Nat :=
  if l.stop numPorts lineSize ≤ maxWord then .ok (l.stop numPorts lineSize) else .error .overflow

/-- Whether an address lies in the private region of a port. -/
def owns (l : RegionLayout) (port addr : Nat) : Bool :=
  l.privateBase port ≤ addr && addr < l.privateBase port + l.privateBytes

/-- Private regions lie back to back. -/
theorem privateBase_succ (l : RegionLayout) (port : Nat) :
    l.privateBase (port + 1) = l.privateBase port + l.privateBytes := by
  unfold privateBase
  rw [Nat.succ_mul]
  omega

/-- An address lies in the private region of at most one port. -/
theorem eq_of_owns {l : RegionLayout} {p q addr : Nat} (hp : l.owns p addr = true)
    (hq : l.owns q addr = true) : p = q := by
  simp only [owns, Bool.and_eq_true, decide_eq_true_eq] at hp hq
  have step : ∀ {p q : Nat}, p < q → l.privateBase p + l.privateBytes ≤ l.privateBase q := by
    intro p q h
    rw [← privateBase_succ]
    exact Nat.add_le_add_left (Nat.mul_le_mul_right _ h) _
  rcases Nat.lt_trichotomy p q with h | h | h
  · have := step h
    omega
  · exact h
  · have := step h
    omega

end RegionLayout

/-- The settings of the traffic. -/
structure TrafficConfig where
  /-- Whether no port starts a pattern before all have finished the one before. -/
  lockstep : Bool := true
  /-- The accesses of a port in a pattern. -/
  reqsPerPattern : Nat := 256
  /-- Where the regions lie. -/
  layout : RegionLayout := {}
  /-- The accesses that a port may have in flight. -/
  maxInflight : Nat := 8
  /-- Whether progress is printed. -/
  printLines : Bool := true
  /-- The patterns in the order in which they run. -/
  patterns : List PatternSpec := []
  deriving DecidableEq, Repr, Inhabited

/-- What the shared region holds at an address. -/
def fillByte (addr : Nat) : UInt8 := lowByte (addr ^^^ (addr >>> 8) ^^^ (addr >>> 16))

end MemPort
