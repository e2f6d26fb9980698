import MemPort.Notice
import MemPort.TimedQueue

/-!
# Requestor ports

The front end of one requestor: a pipelined queue of its transactions.  A
transaction becomes visible to arbitration once it has spent the port's latency
in the queue and while the port is not parked on a lock.  A requestor that finds
the queue full is owed a retry.

## Main definitions

* `RequestorPort` — the queue with the two flags `needsRetry` and `locked`.
* `RequestorPort.push` — admission; a refusal is remembered.
* `RequestorPort.head?`, `RequestorPort.pop?` — the visible head.

## References

`SPEC_FULL.md`, section 4.1.
-/

namespace MemPort

/-- The front end of one requestor. -/
structure RequestorPort where
  /-- The number of the port. -/
  id : Nat
  /-- The admitted transactions. -/
  queue : TimedQueue Transaction
  /-- Whether the requestor was refused and is owed a retry. -/
  needsRetry : Bool
  /-- Whether the port is parked on a lock. -/
  locked : Bool

namespace RequestorPort

/-- An empty port, without the check of its storage. -/
def ofLatency (id latency : Nat) : RequestorPort :=
  ⟨id, .ofConfig (.pipelined latency), false, false⟩

/-- An empty port whose queue is a pipeline of `latency` stages. -/
def new (id latency : Nat) : Except Assertion RequestorPort :=
  (TimedQueue.new (.pipelined latency)).map fun queue => ⟨id, queue, false, false⟩

/-- The number of admitted transactions. -/
def length (p : RequestorPort) : Nat := p.queue.length

/-- The admitted transactions, oldest first. -/
def queued (p : RequestorPort) : List Transaction := p.queue.entries.map (·.payload)

/-- Admit a transaction, or remember that the requestor was refused. -/
def push (p : RequestorPort) (now : Nat) (txn : Transaction) : Logged (Bool × RequestorPort) :=
  match p.queue.push? now txn with
  | some queue => .quiet (true, { p with queue })
  | none => ⟨(false, { p with needsRetry := true }), [.portFull p.id p.queue.capacity]⟩

/-- Whether the oldest transaction is visible. -/
def isHeadReady (p : RequestorPort) (now : Nat) : Bool := !p.locked && p.queue.isHeadReady now

/-- The oldest transaction, if it is visible. -/
def head? (p : RequestorPort) (now : Nat) : Option Transaction :=
  if p.locked then none else p.queue.peek? now

/-- Remove the oldest transaction, if it is visible. -/
def pop? (p : RequestorPort) (now : Nat) : Option (Stamped Transaction × RequestorPort) :=
  if p.locked then none
  else (p.queue.pop? now).map fun r => (r.1, { p with queue := r.2 })

/-- Settle the debt of a retry, and say whether there was one. -/
def takeRetry (p : RequestorPort) : Bool × RequestorPort :=
  (p.needsRetry, { p with needsRetry := false })

/-! ### Effects -/

theorem head?_eq_some_iff {p : RequestorPort} {now : Nat} {txn : Transaction} :
    p.head? now = some txn ↔ p.locked = false ∧ p.queue.peek? now = some txn := by
  unfold head?
  cases p.locked <;> simp

/-- Only a port that is not parked gives up its head, and only its queue changes
by that. -/
theorem pop?_eq_some {p p' : RequestorPort} {now : Nat} {e : Stamped Transaction}
    (h : p.pop? now = some (e, p')) :
    p.locked = false ∧ ∃ queue, p.queue.pop? now = some (e, queue) ∧
    p' = { p with queue } := by
  unfold pop? at h
  split at h
  · cases h
  · rename_i hopen
    obtain ⟨⟨e', queue⟩, hqueue, heq⟩ := Option.map_eq_some_iff.mp h
    cases heq
    exact ⟨Bool.eq_false_iff.mpr hopen, queue, hqueue, rfl⟩

/-- A visible head can be removed, and removing it shortens the queue by one. -/
theorem pop?_of_head? {p : RequestorPort} {now : Nat} {txn : Transaction}
    (h : p.head? now = some txn) :
    ∃ e p', p.pop? now = some (e, p') ∧ e.payload = txn ∧ p.length = p'.length + 1 ∧
      p'.locked = p.locked ∧ p'.needsRetry = p.needsRetry ∧ p'.id = p.id := by
  obtain ⟨hopen, hpeek⟩ := head?_eq_some_iff.mp h
  rw [← TimedQueue.map_pop?] at hpeek
  obtain ⟨⟨e, q⟩, hq, he⟩ := Option.map_eq_some_iff.mp hpeek
  refine ⟨e, { p with queue := q }, ?_, he, TimedQueue.length_pop? hq, rfl, rfl, rfl⟩
  unfold pop?
  rw [hopen, hq]
  rfl

/-- Removing a head leaves a queue shorter by one, and the flags as they were. -/
theorem length_pop? {p p' : RequestorPort} {now : Nat} {e : Stamped Transaction}
    (h : p.pop? now = some (e, p')) :
    p.length = p'.length + 1 ∧ p'.locked = p.locked ∧ p'.needsRetry = p.needsRetry ∧
      p'.id = p.id := by
  obtain ⟨-, queue, hqueue, rfl⟩ := pop?_eq_some h
  exact ⟨TimedQueue.length_pop? hqueue, rfl, rfl, rfl⟩

/-- A head is visible exactly when it can be looked at. -/
theorem isHeadReady_eq (p : RequestorPort) (now : Nat) :
    p.isHeadReady now = (p.head? now).isSome := by
  unfold isHeadReady head?
  cases p.locked
  · rw [← TimedQueue.map_pop?, ← TimedQueue.isSome_pop?]
    simp
  · simp

end RequestorPort

end MemPort
