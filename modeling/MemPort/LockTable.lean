import MemPort.AscMap
import MemPort.Failure
import MemPort.Notice

/-!
# The lock table

A load-locked that goes out locks its exact address for its port.  While the
lock lives, the linked accesses of other ports to that address wait.  A lock
ends by a store to the address, by the owner's own store-conditional, or by its
timeout.

## Main definitions

* `LockTable` — the locks by address, and how long a lock lives.
* `LockTable.check` — may this access go ahead?  A lock that ends on the way
  is dropped.
* `LockTable.acquire`, `LockTable.expire` — a new lock, and the sweep of old
  ones.
* `LockTable.Checked`, `LockTable.Acquired` — the ways in which a check and an
  acquisition can go.

## References

`SPEC_FULL.md`, sections 3 and 4.3: entries of the lock table and their
lifetime; section 10.6, item 5: the sweep of expired entries.
-/

namespace MemPort

/-- A lock on an address. -/
structure Lock where
  /-- The port that holds it. -/
  owner : Nat
  /-- Since when. -/
  acquiredAt : Nat
  deriving DecidableEq, Repr

/-- The answer to whether an access may go ahead. -/
inductive LockCheck where
  /-- No live lock stands in the way. -/
  | free
  /-- A linked access ran into the live lock of another port. -/
  | blocked (owner : Nat)
  /-- The lock on the address was dropped, and parked ports may try again. -/
  | released
  deriving DecidableEq, Repr

/-- Whether an access has to wait. -/
def LockCheck.isBlocked : LockCheck → Bool
  | blocked _ => true
  | _ => false

/-- The locks by exact address. -/
structure LockTable where
  /-- How long a lock lives. -/
  timeout : Nat
  /-- The locks. -/
  locks : AscMap Lock

namespace LockTable

/-- A table without locks; a lock lives for at least a cycle. -/
def new (timeout : Nat) : Except Assertion LockTable :=
  if timeout = 0 then .error .lockTableTimeout else .ok ⟨timeout, ∅⟩

/-- The port that holds the lock on an address, expired or not. -/
def holder? (t : LockTable) (addr : Nat) : Option Nat := (t.locks.get? addr).map (·.owner)

/-- Whether a lock has run out of time. -/
def isExpired (t : LockTable) (lock : Lock) (now : Nat) : Bool :=
  t.timeout ≤ now - lock.acquiredAt

/-- May `cmd` of `port` on `addr` go ahead?  Only a linked access that meets the
live lock of another port has to wait.  An expired lock is dropped, and so is
one that a store meets. -/
def check (t : LockTable) (addr port now : Nat) (cmd : Command) :
    Logged (LockCheck × LockTable) :=
  match t.locks.get? addr with
  | none => .quiet (.free, t)
  | some lock =>
      if cmd.isLinked && lock.owner != port && !t.isExpired lock now then
        ⟨(.blocked lock.owner, t), [.lockHit port cmd addr lock.owner]⟩
      -- dropped before anything is sent, whatever becomes of the access
      else if t.isExpired lock now || cmd.isExclusive then
        ⟨(.released, { t with locks := t.locks.erase addr }), [.lockReleased addr lock.owner]⟩
      else .quiet (.free, t)

/-- Lock an address for a port.  The owner of a live lock keeps it as it is;
nobody else gets it. -/
def acquire (t : LockTable) (addr port now : Nat) :
    Except InvariantViolation LockTable :=
  let fresh : LockTable := { t with locks := t.locks.insert addr ⟨port, now⟩ }
  match t.locks.get? addr with
  | none => .ok fresh
  | some lock =>
      if t.isExpired lock now then .ok fresh
      else if lock.owner = port then .ok t
      else .error (.lockOwnerMismatch addr lock.owner port)

/-- Drop the locks that have run out of time, and count them. -/
def expire (t : LockTable) (now : Nat) : Nat × LockTable :=
  let kept := t.locks.filter fun _ lock => now - lock.acquiredAt < t.timeout
  (t.locks.size - kept.size, { t with locks := kept })

/-! ### Effects -/

/-- The ways in which a check can go, with what becomes of the table. -/
inductive Checked (t : LockTable) (addr port now : Nat) (cmd : Command) :
    LockCheck → LockTable → Prop
  /-- No lock stands there. -/
  | vacant (hnone : t.locks.get? addr = none) : Checked t addr port now cmd .free t
  /-- A linked access meets the live lock of another port. -/
  | blocked {lock : Lock} (hlock : t.locks.get? addr = some lock) (hlinked : cmd.isLinked = true)
      (hother : lock.owner ≠ port) (hlive : t.isExpired lock now = false) :
      Checked t addr port now cmd (.blocked lock.owner) t
  /-- The lock that stands there ends. -/
  | released {lock : Lock} (hlock : t.locks.get? addr = some lock)
      (hown : cmd.isLinked = true → t.isExpired lock now = false → lock.owner = port)
      (hends : t.isExpired lock now = true ∨ cmd.isExclusive = true) :
      Checked t addr port now cmd .released { t with locks := t.locks.erase addr }
  /-- The live lock that stands there lets the access go ahead. -/
  | passed {lock : Lock} (hlock : t.locks.get? addr = some lock)
      (hown : cmd.isLinked = true → lock.owner = port) (hlive : t.isExpired lock now = false)
      (hshared : cmd.isExclusive = false) : Checked t addr port now cmd .free t

/-- **A check goes in one of these ways.** -/
theorem checked_check (t : LockTable) (addr port now : Nat) (cmd : Command) :
    Checked t addr port now cmd (t.check addr port now cmd).value.1
      (t.check addr port now cmd).value.2 := by
  unfold check
  cases hlock : t.locks.get? addr with
  | none => exact .vacant hlock
  | some lock =>
    simp only
    split
    · rename_i hblocked
      simp only [Bool.and_eq_true, bne_iff_ne, Bool.not_eq_true'] at hblocked
      exact .blocked hlock hblocked.1.1 hblocked.1.2 hblocked.2
    · rename_i hopen
      -- an atomic access gets past a live lock only as its owner
      have hown : cmd.isLinked = true → t.isExpired lock now = false → lock.owner = port := by
        intro hlinked hlive
        refine Decidable.byContradiction fun hother => hopen ?_
        rw [hlinked, hlive, Bool.true_and, Bool.not_false, Bool.and_true, bne_iff_ne]
        exact hother
      split
      · rename_i hends
        exact .released hlock hown (Bool.or_eq_true_iff.mp hends)
      · rename_i hstays
        obtain ⟨hlive, hshared⟩ := Bool.or_eq_false_iff.mp (Bool.eq_false_iff.mpr hstays)
        exact .passed hlock (fun hlinked => hown hlinked hlive) hlive hshared

theorem checked_of_check {t t' : LockTable} {addr port now : Nat} {cmd : Command} {c : LockCheck}
    (h : (t.check addr port now cmd).value = (c, t')) : Checked t addr port now cmd c t' := by
  have hchecked := t.checked_check addr port now cmd
  rw [h] at hchecked
  exact hchecked

theorem timeout_of_check {t t' : LockTable} {addr port now : Nat} {cmd : Command}
    {c : LockCheck} (h : (t.check addr port now cmd).value = (c, t')) :
    t'.timeout = t.timeout := by
  cases checked_of_check h <;> rfl

/-- A check never adds a lock. -/
theorem get?_check {t : LockTable} {addr port now : Nat} {cmd : Command}
    {addr' : Nat} {lock : Lock}
    (h : (t.check addr port now cmd).value.2.locks.get? addr' = some lock) :
    t.locks.get? addr' = some lock := by
  have hchecked := t.checked_check addr port now cmd
  generalize (t.check addr port now cmd).value.1 = c at hchecked
  generalize (t.check addr port now cmd).value.2 = t' at hchecked h
  cases hchecked with
  | released =>
    rw [AscMap.get?_erase] at h
    split at h
    · cases h
    · exact h
  | _ => exact h

/-- The ways in which an acquisition can go. -/
inductive Acquired (t : LockTable) (addr port now : Nat) :
    Except InvariantViolation LockTable → Prop
  /-- No live lock stands there. -/
  | locked (hfree : ∀ lock, t.locks.get? addr = some lock → t.isExpired lock now = true) :
      Acquired t addr port now (.ok { t with locks := t.locks.insert addr ⟨port, now⟩ })
  /-- The port has the lock already. -/
  | kept {lock : Lock} (hlock : t.locks.get? addr = some lock)
      (hlive : t.isExpired lock now = false) (hown : lock.owner = port) :
      Acquired t addr port now (.ok t)
  /-- Another port has the lock. -/
  | taken {lock : Lock} (hlock : t.locks.get? addr = some lock)
      (hlive : t.isExpired lock now = false) (hother : lock.owner ≠ port) :
      Acquired t addr port now (.error (.lockOwnerMismatch addr lock.owner port))

/-- **An acquisition goes in one of these ways.** -/
theorem acquired_acquire (t : LockTable) (addr port now : Nat) :
    Acquired t addr port now (t.acquire addr port now) := by
  unfold acquire
  cases hlock : t.locks.get? addr with
  | none => exact .locked fun lock h => by rw [hlock] at h; cases h
  | some lock =>
    simp only
    split
    · rename_i hexpired
      refine .locked fun lock' h => ?_
      rw [hlock] at h
      cases h
      exact hexpired
    · rename_i hlive
      rw [Bool.not_eq_true] at hlive
      split
      · rename_i hown
        exact .kept hlock hlive hown
      · rename_i hother
        exact .taken hlock hlive hother

theorem acquired_of_acquire {t t' : LockTable} {addr port now : Nat}
    (h : t.acquire addr port now = .ok t') : Acquired t addr port now (.ok t') := by
  have hacquired := t.acquired_acquire addr port now
  rw [h] at hacquired
  exact hacquired

end LockTable

end MemPort
