import MemPort.Failure

/-!
# Round-robin arbitration

An arbiter chooses one of the ready ports, starting behind the port it granted
last and wrapping around.  Choosing changes nothing; only `grant` moves the
rotation, so a choice that is not acted on (a locked head, a busy memory) costs
nobody a turn.

## Main definitions

* `RoundRobin` — the number of ports and the last grant.
* `RoundRobin.order` — the ports in the order in which they are asked.
* `RoundRobin.choose` — the first ready port in that order.

## Main results

* `RoundRobin.ready_of_choose` — a chosen port is ready.
* `RoundRobin.choose_eq_none_iff` — nothing is chosen exactly when no port is
  ready.

## References

`SPEC_FULL.md`, section 4.4, step 3: the rotation of grants.
-/

namespace MemPort

/-- The state of an arbiter over numbered ports. -/
structure RoundRobin where
  /-- The number of ports. -/
  ports : Nat
  /-- The port granted last. -/
  lastGranted : Option Nat
  deriving DecidableEq, Repr

namespace RoundRobin

/-- An arbiter that has granted nothing, over at least one port. -/
def new (ports : Nat) : Except Assertion RoundRobin :=
  if ports = 0 then .error .noPorts else .ok ⟨ports, none⟩

/-- The port that is asked first: the one behind the last grant. -/
def start (r : RoundRobin) : Nat :=
  match r.lastGranted with
  | none => 0
  | some last => (last + 1) % r.ports

/-- The ports in the order in which they are asked. -/
def order (r : RoundRobin) : List Nat :=
  (List.range r.ports).map fun i => (r.start + i) % r.ports

/-- The first ready port in the rotation; a port beyond the mask is not ready. -/
def choose (r : RoundRobin) (ready : List Bool) : Option Nat :=
  r.order.find? fun port => ready.getD port false

/-- Choose among ports whose mask has one bit per port. -/
def arbitrate (r : RoundRobin) (ready : List Bool) : Except Assertion (Option Nat) :=
  if ready.length = r.ports then .ok (r.choose ready) else .error .maskWidth

/-- Move the rotation behind a port. -/
def grant (r : RoundRobin) (port : Nat) : RoundRobin := { r with lastGranted := some port }

/-- Move the rotation behind a port that exists. -/
def update (r : RoundRobin) (port : Nat) : Except Assertion RoundRobin :=
  if port < r.ports then .ok (r.grant port) else .error (.grantOutOfRange port)

/-! ### What is chosen -/

/-- A chosen port is ready. -/
theorem ready_of_choose {r : RoundRobin} {ready : List Bool} {port : Nat}
    (h : r.choose ready = some port) : ready.getD port false = true :=
  List.find?_some (p := fun port => ready.getD port false) h

/-- A chosen port exists. -/
theorem lt_of_choose {r : RoundRobin} {ready : List Bool} {port : Nat}
    (h : r.choose ready = some port) : port < r.ports := by
  have hmem : port ∈ r.order := List.mem_of_find?_eq_some h
  obtain ⟨i, hi, rfl⟩ := List.mem_map.mp hmem
  exact Nat.mod_lt _ (Nat.lt_of_le_of_lt (Nat.zero_le _) (List.mem_range.mp hi))

/-- Every port is asked. -/
theorem mem_order (r : RoundRobin) {port : Nat} (h : port < r.ports) : port ∈ r.order := by
  have hpos : 0 < r.ports := Nat.lt_of_le_of_lt (Nat.zero_le _) h
  have hstart : r.start < r.ports ∨ r.start = 0 := by
    unfold start
    split
    · exact Or.inr rfl
    · exact Or.inl (Nat.mod_lt _ hpos)
  have hlt : r.start < r.ports := by omega
  refine List.mem_map.mpr ⟨(port + r.ports - r.start) % r.ports, ?_, ?_⟩
  · exact List.mem_range.mpr (Nat.mod_lt _ hpos)
  · -- walking the distance from the start ends at the port
    rw [Nat.add_mod_mod]
    have : r.start + (port + r.ports - r.start) = port + r.ports := by omega
    rw [this, Nat.add_mod_right, Nat.mod_eq_of_lt h]

/-- **Nothing is chosen exactly when no port is ready.** -/
theorem choose_eq_none_iff (r : RoundRobin) (ready : List Bool) :
    r.choose ready = none ↔ ∀ port < r.ports, ready.getD port false = false := by
  unfold choose
  rw [List.find?_eq_none]
  constructor
  · intro h port hport
    have := h port (r.mem_order hport)
    cases hr : ready.getD port false
    · rfl
    · exact absurd hr this
  · intro h port hport
    obtain ⟨i, hi, rfl⟩ := List.mem_map.mp hport
    have hpos : 0 < r.ports := Nat.lt_of_le_of_lt (Nat.zero_le _) (List.mem_range.mp hi)
    have := h _ (Nat.mod_lt (r.start + i) hpos)
    simp only [this, Bool.false_eq_true, not_false_eq_true]

end RoundRobin

end MemPort
