import MemPort.Proofs.Queues

/-!
# What the steps count

The counters are kept in many places, each on the path that it counts.  Here it
is said once, function by function, what a step does to the counters that tell
of transactions and requests; the other counters, of locks, snoops and refusals
by the memory, are left out (`Counters.traffic`).

A transaction that leaves its port is counted with its wait, which is the age of
the oldest entry of the port's queue at that time (`Allocator.waitedAt`).

## Main definitions

* `Counters.traffic` — the counters that tell of transactions and requests.
* `Counters.recordWaits`, `Counters.recordDeliveries` — several transactions
  leave their ports, or complete.
* `Allocator.waitedAt` — how long the oldest transaction of a port has waited.

## Main results

* `Assembly.stats_retireHeads` — retiring visible heads counts their waits.

## References

`SPEC_FULL.md`, section 10.5 and section 10.6, item 3: what is counted, and the
waits.
-/

namespace MemPort

/-! ### Counters -/

namespace Counters

/-- The counters that tell of transactions and requests: the others are set to
zero. -/
def traffic (c : Counters) : Counters :=
  { c with
    backendBlocked := 0
    lockBlocks := 0
    locksAcquired := 0
    locksReleased := 0
    snoopsSent := 0
    responseRejects := 0
    functionalAccesses := 0 }

/-- Transactions left their ports after waits. -/
def recordWaits (waits : List Nat) (c : Counters) : Counters :=
  waits.foldl (fun c wait => c.recordWait wait) c

/-- Completions were delivered. -/
def recordDeliveries : Nat → Counters → Counters
  | 0, c => c
  | n + 1, c => recordDeliveries n c.recordDelivery

@[simp] theorem recordWaits_nil (c : Counters) : c.recordWaits [] = c := rfl

@[simp] theorem recordWaits_cons (wait : Nat) (waits : List Nat) (c : Counters) :
    c.recordWaits (wait :: waits) = (c.recordWait wait).recordWaits waits := rfl

theorem traffic_recordWaits (waits : List Nat) (c : Counters) :
    (c.recordWaits waits).traffic = c.traffic.recordWaits waits := by
  induction waits generalizing c with
  | nil => rfl
  | cons wait rest ih => exact ih _

theorem traffic_recordDeliveries (n : Nat) (c : Counters) :
    (c.recordDeliveries n).traffic = c.traffic.recordDeliveries n := by
  induction n generalizing c with
  | zero => rfl
  | succ n ih => exact ih _

/-- What is counted of a request that goes out for some heads, of which all but
one joined it. -/
def recordRequest (waits : List Nat) (folded : Nat) (c : Counters) : Counters :=
  (c.recordSend.recordWaits waits).recordSpaceCoalesced folded

/-- What is counted of some heads that join a request in flight. -/
def recordFold (waits : List Nat) (folded : Nat) (c : Counters) : Counters :=
  ((c.recordSpaceCoalesced folded).recordTimeCoalesced (folded + 1)).recordWaits waits

/-- What is counted of an answer that is handed out to a number of transactions. -/
def recordAnswer (n : Nat) (c : Counters) : Counters := (c.recordDeliveries n).recordDrain

end Counters

/-- How long the oldest transaction of a port has waited. -/
def Allocator.waitedAt (a : Allocator) (now port : Nat) : Nat :=
  ((a.ports[port]?.bind (·.queue.front?)).map (·.age now)).getD 0

theorem Allocator.waitedAt_congr {a b : Allocator} {now : Nat} (h : a.ports = b.ports) :
    a.waitedAt now = b.waitedAt now := by
  funext port
  unfold waitedAt
  rw [h]

/-! ### Retiring -/

namespace Assembly

variable {σ : Type} [Requestors σ]

/-- **Retiring a visible head counts its wait.** -/
theorem stats_retireHead {m : Assembly σ} {now port : Nat} {txn : Transaction}
    (h : m.allocator.headAt? now port = some txn) :
    (m.retireHead now port).allocator.stats =
      m.allocator.stats.recordWait (m.allocator.waitedAt now port) := by
  obtain ⟨p, hp, hhead⟩ := Allocator.headAt?_eq_some_iff.mp h
  obtain ⟨e, p', hpop, -⟩ := RequestorPort.pop?_of_head? hhead
  -- what leaves is the front of the queue
  have hfront : p.queue.front? = some e := by
    obtain ⟨-, queue, hqueue, -⟩ := RequestorPort.pop?_eq_some hpop
    unfold TimedQueue.front?
    rw [(TimedQueue.entries_pop? hqueue).1, List.head?_cons]
  have hwaited : m.allocator.waitedAt now port = e.age now := by
    unfold Allocator.waitedAt
    rw [hp, Option.bind_some, hfront]
    rfl
  rw [hwaited]
  unfold retireHead
  simp only [hp, hpop]
  split <;> rfl

theorem waitedAt_retireHead_of_ne {m : Assembly σ} {now port q : Nat} (hq : port ≠ q) :
    (m.retireHead now port).allocator.waitedAt now q = m.allocator.waitedAt now q := by
  unfold Allocator.waitedAt
  rw [ports_retireHead]
  split
  · rfl
  · rw [List.getElem?_set_ne hq]

/-- **Retiring visible heads of different ports counts their waits.** -/
theorem stats_retireHeads {m : Assembly σ} {now : Nat} {os : List Origin}
    (hvisible : ∀ o ∈ os, m.allocator.headAt? now o.port = some o.txn)
    (hnodup : (os.map (·.port)).Nodup) :
    (m.retireHeads now (os.map (·.port))).allocator.stats =
      m.allocator.stats.recordWaits (os.map fun o => m.allocator.waitedAt now o.port) := by
  induction os generalizing m with
  | nil => rfl
  | cons o rest ih =>
    rw [List.map_cons, List.nodup_cons] at hnodup
    obtain ⟨hfresh, hnodup⟩ := hnodup
    have hne : ∀ x ∈ rest, o.port ≠ x.port := fun x hx heq =>
      hfresh (heq ▸ List.mem_map.mpr ⟨x, hx, rfl⟩)
    have htail := ih (visible_retireHead hvisible hfresh) hnodup
    have hsame : (rest.map fun x => (m.retireHead now o.port).allocator.waitedAt now x.port) =
        rest.map fun x => m.allocator.waitedAt now x.port :=
      List.map_congr_left fun x hx => waitedAt_retireHead_of_ne (hne x hx)
    rw [hsame, stats_retireHead (hvisible o List.mem_cons_self)] at htail
    exact htail

/-! ### Steps that count nothing of traffic -/

/-- Telling the other lanes is counted, but is no traffic. -/
theorem traffic_broadcast? {m m' : Assembly σ} {snoop : Option Snoop}
    (h : m.broadcast? snoop = .ok () m') :
    m'.allocator.stats.traffic = m.allocator.stats.traffic := by
  cases snoop with
  | none =>
    cases h
    rfl
  | some snoop =>
    unfold broadcast? broadcast at h
    simp only at h
    split at h
    · cases h
    · rename_i m₁ hlanes
      cases h
      rw [← allocator_snoopLanes hlanes]
      rfl

omit [Requestors σ] in
/-- Locking an address is counted, but is no traffic. -/
theorem traffic_lockAddress {m m' : Assembly σ} {now port : Nat} {sent : BackendRequest}
    (h : m.lockAddress now port sent = .ok m') :
    m'.allocator.stats.traffic = m.allocator.stats.traffic := by
  unfold lockAddress at h
  split at h
  · cases hacq : m.allocator.locks.acquire sent.addr port now with
    | error v =>
      rw [hacq] at h
      cases h
    | ok locks =>
      rw [hacq] at h
      cases h
      rfl
  · cases h
    rfl

omit [Requestors σ] in
theorem traffic_sweepLocks (m : Assembly σ) (now : Nat) :
    (m.sweepLocks now).allocator.stats.traffic = m.allocator.stats.traffic := by
  obtain ⟨-, ha | ⟨-, ha⟩⟩ := m.sweepLocks_cases now
  · rw [ha]
    rfl
  · rw [ha]

end Assembly

end MemPort
