import MemPort.Proofs.Bookkeeping

/-!
# Who is granted

The arbiter asks the ports one after the other, beginning behind the port that
it granted last, and chooses the first that is ready.  So a port is chosen only
if it is asked no later than any port that is ready, and a port that is granted
is asked last from then on.

The rotation moves in one place only: where a turn ends with a request that goes
out, or with a head that joins a load in flight.  A port that is parked, a head
that spills past its line and a request that the memory refuses leave it where
it is.

## Main definitions

* `RoundRobin.ahead` — how many ports are asked before a port.
* `Event.winner?` — the port that was granted with success.
* `Rotated` — what a piece of a run does to the rotation.

## Main results

* `RoundRobin.ahead_le_of_choose` — no ready port is asked before the one that
  is chosen.
* `RoundRobin.ahead_lt_grant` — a grant keeps two ports in order, unless it
  passes one of them.
* `Effect.rotated` — the rotation moves exactly behind a port that is granted
  with success.

## References

`SPEC_FULL.md`, section 4.4, step 3: the rotation of grants.
-/

namespace MemPort

/-! ### The order of asking -/

namespace RoundRobin

/-- The number of ports that are asked before a port. -/
def ahead (r : RoundRobin) (port : Nat) : Nat :=
  if r.start ≤ port then port - r.start else port + r.ports - r.start

variable {r : RoundRobin} {port other granted : Nat} {ready : List Bool}

theorem start_lt (h : 0 < r.ports) : r.start < r.ports := by
  unfold start
  split
  · exact h
  · exact Nat.mod_lt _ h

theorem start_grant (h : port < r.ports) :
    (r.grant port).start = if port + 1 = r.ports then 0 else port + 1 := by
  show (port + 1) % r.ports = _
  split
  · rename_i hlast
    rw [hlast, Nat.mod_self]
  · exact Nat.mod_eq_of_lt (by omega)

/-- The port that is asked after a number of others. -/
theorem ahead_asked {i : Nat} (hi : i < r.ports) : r.ahead ((r.start + i) % r.ports) = i := by
  have hstart : r.start < r.ports := start_lt (by omega)
  unfold ahead
  by_cases hwrap : r.start + i < r.ports
  · rw [Nat.mod_eq_of_lt hwrap, if_pos (by omega)]
    omega
  · rw [Nat.mod_eq_sub_mod (by omega), Nat.mod_eq_of_lt (by omega), if_neg (by omega)]
    omega

theorem asked_ahead (h : port < r.ports) : (r.start + r.ahead port) % r.ports = port := by
  have hstart : r.start < r.ports := start_lt (by omega)
  unfold ahead
  split
  · rw [Nat.mod_eq_of_lt (by omega)]
    omega
  · rw [Nat.mod_eq_sub_mod (by omega), Nat.mod_eq_of_lt (by omega)]
    omega

/-- **No ready port is asked before the one that is chosen.** -/
theorem ahead_le_of_choose (h : r.choose ready = some granted) (hport : port < r.ports)
    (hready : ready.getD port false = true) : r.ahead granted ≤ r.ahead port := by
  unfold choose order at h
  rw [List.find?_map] at h
  obtain ⟨i, hfound, rfl⟩ := Option.map_eq_some_iff.mp h
  obtain ⟨-, hi, hbefore⟩ := List.find?_range_eq_some.mp hfound
  rw [ahead_asked (List.mem_range.mp hi)]
  by_contra hlt
  -- a port that is asked earlier was not ready
  have hnot := hbefore (r.ahead port) (by omega)
  rw [Function.comp_apply, asked_ahead hport, hready] at hnot
  cases hnot

/-- The port that was granted is asked last. -/
theorem ahead_lt_grant_self (hport : port < r.ports) (hgranted : granted < r.ports)
    (hne : port ≠ granted) : (r.grant granted).ahead port < (r.grant granted).ahead granted := by
  have hports : (r.grant granted).ports = r.ports := rfl
  unfold ahead
  rw [start_grant hgranted, hports]
  split_ifs <;> omega

/-- **A grant keeps two ports in the order in which they are asked**, unless it
passes one of them. -/
theorem ahead_lt_grant (hport : port < r.ports) (hother : other < r.ports)
    (hgranted : granted < r.ports) (hne : port ≠ granted) (hle : r.ahead granted ≤ r.ahead port)
    (hlt : r.ahead port < r.ahead other) :
    (r.grant granted).ahead port < (r.grant granted).ahead other := by
  have hports : (r.grant granted).ports = r.ports := rfl
  have hstart : r.start < r.ports := start_lt (by omega)
  unfold ahead at hle hlt ⊢
  rw [start_grant hgranted, hports]
  split_ifs at hle hlt ⊢ <;> omega

end RoundRobin

/-! ### Grants of a run -/

/-- The port that a turn granted with success: a request went out for it, or its
head joined a load in flight. -/
def Turn.winner? : Turn → Option Nat
  | .sent port .. => some port
  | .folded port .. => some port
  | _ => none

namespace Event

/-- The port that was granted with success. -/
def winner? : Event → Option Nat
  | turned _ (.ok turn) => turn.winner?
  | _ => none

/-- The cycle of an arbitration. -/
def arbitratedAt? : Event → Option Nat
  | turned now _ => some now
  | _ => none

theorem winner?_of_peripheral {e : Event} (h : e.isPeripheral = true) : e.winner? = none := by
  unfold isPeripheral at h
  split at h <;> first | rfl | cases h

theorem winner?_of_fromMemory {e : Event} (h : e.isFromMemory = true) : e.winner? = none := by
  unfold isFromMemory at h
  split at h <;> first | rfl | cases h

end Event

/-- What a piece of a run does to the rotation. -/
inductive Rotated (a : Allocator) (e : Event) (b : Allocator) : Prop
  /-- No port was granted with success, and the rotation stays where it is. -/
  | kept (hnone : e.winner? = none) (h : b.arbiter = a.arbiter)
  /-- The port that the arbiter chose gave up its head, and the rotation moves
  behind it. -/
  | granted {now port : Nat} {head : Transaction} (hnow : e.arbitratedAt? = some now)
      (hwinner : e.winner? = some port) (hgrant : a.grant? now = some (port, head))
      (hserved : ∃ o ∈ e.served, o.2.port = port) (h : b.arbiter = a.arbiter.grant port)

theorem Rotated.width_eq {a b : Allocator} {e : Event} (h : Rotated a e b) :
    b.arbiter.ports = a.arbiter.ports := by
  cases h with
  | kept _ h => rw [h]
  | granted _ _ _ _ h =>
    rw [h]
    rfl

section Genuine

variable {σ : Type} [Requestors σ] [Backend σ]

/-- **The rotation moves exactly behind a port that is granted with success.** -/
theorem Effect.rotated {m m' : Assembly (Recorded σ)} {e : Event} (h : Effect m m' e) :
    Rotated m.allocator e m'.allocator := by
  by_cases hperipheral : e.isPeripheral = true
  · obtain ⟨ports, locks, stats, _, _, -, ha⟩ := h.frame hperipheral
    exact .kept (Event.winner?_of_peripheral hperipheral) (by rw [ha])
  by_cases hmemory : e.isFromMemory = true
  · obtain ⟨backendPort, outstanding, stats, _, ha⟩ := h.frame_fromMemory hmemory
    exact .kept (Event.winner?_of_fromMemory hmemory) (by rw [ha])
  -- a turn is left that serves a head
  cases h with
  | turned _ _ h =>
    cases h with
    | @served m₁ _ granted head request _ hcleared hformed hserved =>
      have hsame := hcleared.arbiter_eq
      -- the head of the granted port is the first behind the request
      have hfirst : ∀ id : Nat,
          ∃ o ∈ request.origins.map fun o => (id, o), o.2.port = granted := by
        intro id
        refine ⟨(id, request.first), List.mem_map_of_mem List.mem_cons_self, ?_⟩
        rw [hformed.first]
      cases hserved with
      | refused h =>
        obtain ⟨stats, ha⟩ := h.allocator
        rw [ha]
        exact .kept rfl hsame
      | sent h _ =>
        obtain ⟨ports, stats, locks, -, ha⟩ := h.allocator
        refine .granted rfl rfl hcleared.grant (hfirst _) ?_
        rw [ha, hsame]
      | folded h _ =>
        obtain ⟨pending, merged, ports, stats, -, -, ha⟩ := h.allocator
        refine .granted rfl rfl hcleared.grant (hfirst _) ?_
        rw [ha, hsame]
      | _ => exact absurd rfl hperipheral
    | _ => exact absurd rfl hperipheral
  | _ => first | exact absurd rfl hperipheral | exact absurd rfl hmemory

theorem Linked.width_eq {m : Assembly (Recorded σ)} {ms : List (Moment σ)} (h : Linked m ms)
    (hok : Unbroken ms) :
    (endOf m ms).allocator.arbiter.ports = m.allocator.arbiter.ports :=
  Linked.induct (P := fun _ m' => m'.allocator.arbiter.ports = m.allocator.arbiter.ports)
    (R := fun _ => True) rfl
    (fun _ _ hpre hx hokx _ => (effect_of_genuine hx hokx).rotated.width_eq.trans hpre) h hok
    fun _ _ => trivial

end Genuine

end MemPort
