import MemPort.Failure

/-!
# Timed queues

A latency is a fixed number of cycles between the arrival of an entry and its
appearance at the head of a queue.  A `TimedQueue` is a bounded first-in
first-out list that stamps every entry with its arrival and shows the head only
once the latency has passed.

A queue of `latency + 1` entries behaves like a pipeline without bubbles: an
entry is pushed at the start of a cycle and the head is popped at its end, so
one entry a cycle needs one extra slot.

## Main definitions

* `Stamped` — an entry with its arrival; `Stamped.isReady`, `Stamped.age`.
* `TimedQueue` — the queue, never longer than its capacity.
* `TimedQueue.push?`, `TimedQueue.pop?` — arrival at the back, departure from
  the front.

## Main results

* `TimedQueue.entries_push?`, `TimedQueue.entries_pop?` — the effect on the
  entries.

## References

`SPEC_FULL.md`, section 10.1: the bounded queue that both pipelines are built
on; section 3: its capacity and its order.
-/

namespace MemPort

/-- An entry with the cycle at which it arrived. -/
structure Stamped (α : Type) where
  /-- When the entry arrived. -/
  arrivedAt : Nat
  /-- The entry. -/
  payload : α
  deriving DecidableEq, Repr

namespace Stamped

variable {α : Type}

/-- Whether an entry has spent its latency in the queue. -/
def isReady (e : Stamped α) (now latency : Nat) : Bool := satAdd e.arrivedAt latency ≤ now

/-- How long an entry has waited, or zero if it is yet to arrive. -/
def age (e : Stamped α) (now : Nat) : Nat := now - e.arrivedAt

end Stamped

/-- How long entries stay hidden in a queue, and how many it holds. -/
structure QueueConfig where
  /-- The cycles between arrival and appearance at the head. -/
  latency : Nat
  /-- The greatest number of entries. -/
  capacity : Nat
  deriving DecidableEq, Repr

/-- The queue of a pipeline of `latency` stages that takes one entry a cycle. -/
def QueueConfig.pipelined (latency : Nat) : QueueConfig := ⟨latency, latency + 1⟩

/-- The number of slots from which on a queue no longer fits a machine's storage. -/
def storageSlots : Nat := 1 <<< 57

/-- A bounded first-in first-out queue whose head is hidden for a latency. -/
structure TimedQueue (α : Type) where
  /-- The cycles between arrival and appearance at the head. -/
  latency : Nat
  /-- The greatest number of entries. -/
  capacity : Nat
  /-- The entries, oldest first. -/
  entries : List (Stamped α)
  /-- There is never more than a queue can hold. -/
  length_entries_le : entries.length ≤ capacity

namespace TimedQueue

variable {α : Type}

/-- An empty queue, without the check of its configuration. -/
def ofConfig (c : QueueConfig) : TimedQueue α := ⟨c.latency, c.capacity, [], Nat.zero_le _⟩

/-- An empty queue.  A queue has room for an entry, and fits the storage. -/
def new (c : QueueConfig) : Except Assertion (TimedQueue α) :=
  if c.capacity = 0 then .error .emptyQueue
  else if storageSlots ≤ c.capacity then .error .storageLimit
  else .ok (ofConfig c)

/-- The number of entries. -/
def length (q : TimedQueue α) : Nat := q.entries.length

/-- Whether there are no entries. -/
def isEmpty (q : TimedQueue α) : Bool := q.entries.isEmpty

/-- Whether there is no room. -/
def isFull (q : TimedQueue α) : Bool := q.capacity ≤ q.length

/-- The oldest entry, hidden or not. -/
def front? (q : TimedQueue α) : Option (Stamped α) := q.entries.head?

/-- Add an entry that arrives now; a full queue takes none. -/
def push? (q : TimedQueue α) (now : Nat) (payload : α) : Option (TimedQueue α) :=
  if h : q.entries.length < q.capacity then
    some { q with
      entries := q.entries ++ [⟨now, payload⟩]
      length_entries_le := by simpa using Nat.succ_le_of_lt h }
  else none

/-- Whether the oldest entry has spent its latency. -/
def isHeadReady (q : TimedQueue α) (now : Nat) : Bool :=
  q.front?.any fun e => e.isReady now q.latency

/-- The oldest entry, once it has spent its latency. -/
def peek? (q : TimedQueue α) (now : Nat) : Option α :=
  (q.front?.filter fun e => e.isReady now q.latency).map (·.payload)

/-- Remove the oldest entry, once it has spent its latency. -/
def pop? (q : TimedQueue α) (now : Nat) : Option (Stamped α × TimedQueue α) :=
  match h : q.entries with
  | [] => none
  | e :: rest =>
      if e.isReady now q.latency then
        some (e, { q with
          entries := rest
          length_entries_le := by
            have := q.length_entries_le
            rw [h, List.length_cons] at this
            omega })
      else none

/-! ### Effects on the entries -/

@[simp] theorem isFull_iff (q : TimedQueue α) : q.isFull = true ↔ q.length = q.capacity := by
  have := q.length_entries_le
  unfold isFull length
  rw [decide_eq_true_iff]
  omega

/-- A push appends the entry, stamped, and keeps the configuration. -/
theorem entries_push? {q q' : TimedQueue α} {now : Nat} {a : α} (h : q.push? now a = some q') :
    q'.entries = q.entries ++ [⟨now, a⟩] ∧ q'.latency = q.latency ∧
    q'.capacity = q.capacity := by
  unfold push? at h
  split at h
  · cases h
    exact ⟨rfl, rfl, rfl⟩
  · cases h

/-- A push fails exactly on a full queue. -/
theorem push?_eq_none_iff (q : TimedQueue α) (now : Nat) (a : α) :
    q.push? now a = none ↔ q.isFull = true := by
  have := q.length_entries_le
  unfold push?
  split
  · simp only [reduceCtorEq, isFull_iff, length, false_iff]
    omega
  · simp only [isFull_iff, length, true_iff]
    omega

/-- A push succeeds where there is room. -/
theorem exists_push? {q : TimedQueue α} (h : ¬ q.isFull = true) (now : Nat) (a : α) :
    ∃ q', q.push? now a = some q' :=
  Option.isSome_iff_exists.mp (Option.isSome_iff_ne_none.mpr (mt (push?_eq_none_iff q now a).mp h))

/-- A pop removes a ready head and keeps the configuration. -/
theorem entries_pop? {q q' : TimedQueue α} {now : Nat} {e : Stamped α}
    (h : q.pop? now = some (e, q')) :
    q.entries = e :: q'.entries ∧ e.isReady now q.latency = true ∧ q'.latency = q.latency ∧
      q'.capacity = q.capacity := by
  unfold pop? at h
  split at h
  · cases h
  · rename_i e' rest heq
    split at h
    · rename_i hr
      cases h
      exact ⟨heq, hr, rfl, rfl⟩
    · cases h

/-- A pop makes the queue shorter by one. -/
theorem length_pop? {q q' : TimedQueue α} {now : Nat} {e : Stamped α}
    (h : q.pop? now = some (e, q')) : q.length = q'.length + 1 := by
  simp [length, (entries_pop? h).1]

/-- Looking at the head and removing it agree on whether it is ready. -/
theorem isSome_pop? (q : TimedQueue α) (now : Nat) :
    (q.pop? now).isSome = q.isHeadReady now := by
  unfold pop? isHeadReady front?
  split
  · rename_i h
    simp [h]
  · rename_i e rest h
    by_cases hr : e.isReady now q.latency = true <;> simp [h, hr]

/-- Looking at the head shows what removing it returns. -/
theorem map_pop? (q : TimedQueue α) (now : Nat) :
    (q.pop? now).map (·.1.payload) = q.peek? now := by
  unfold pop? peek? front?
  split
  · rename_i h
    simp [h]
  · rename_i e rest h
    by_cases hr : e.isReady now q.latency = true <;> simp [h, hr, Option.filter]

end TimedQueue

end MemPort
