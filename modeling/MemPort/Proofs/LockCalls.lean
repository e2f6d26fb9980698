import MemPort.Proofs.LockExclusion

/-!
# Locks under any calls

A table of locks is called for any addresses, by any ports, and its clock need
not go on from one call to the next.  A lock that was taken anew stays as it is
through all calls made before its time is over, except for the check of an
access that ends it: a store to its address, where a store-conditional counts
only if it is the owner's own.  As long as the lock is there it holds back the
linked accesses of other ports, and nothing else.

The three operations look at the time in different ways.  A check and an
acquisition ask whether the lock has expired, and the sweep keeps the locks that
have not lived long enough.  Both mean the same time, and a call with a clock
that shows less than when the lock was taken finds it alive.

## Main definitions

* `LockTable.Call`, `LockTable.calls` — the operations, and the table after
  some of them.
* `Command.waitsFor`, `Command.endsLock` — what a lock of some port means for
  an access to its address.
* `LockTable.Guards` — what a table that holds a lock answers, and what
  becomes of the lock.

## Main results

* `LockTable.check_of_live` — the check of an access to an address with a live
  lock.
* `LockTable.held_calls` — a lock outlives all calls that do not end it.
* `lock_guards` — a lock that was taken anew is kept and respected until it
  ends.

## References

`SPEC_FULL.md`, section 4.3.
-/

namespace MemPort

/-! ### What a lock means for an access -/

namespace Command

/-- An access of a port has to wait for the lock of an owner. -/
def waitsFor (cmd : Command) (port owner : Nat) : Bool := cmd.isLinked && owner != port

/-- An access of a port ends the lock of an owner: a store does, but a
store-conditional only if it is the owner's. -/
def endsLock (cmd : Command) (port owner : Nat) : Bool :=
  match cmd with
  | .write | .swap => true
  | .storeCond => port == owner
  | .read | .loadLocked => false

/-- The stores that do not have to wait end the lock. -/
theorem isExclusive_eq_endsLock {cmd : Command} {port owner : Nat}
    (h : cmd.waitsFor port owner = false) :
    cmd.isExclusive = cmd.endsLock port owner := by
  cases cmd with
  | storeCond =>
    simp only [waitsFor, isLinked, Bool.true_and, bne_eq_false_iff_eq] at h
    simp only [isExclusive, endsLock, h, BEq.rfl]
  | _ => rfl

/-- An access that ends the lock does not wait for it. -/
theorem not_waitsFor_of_endsLock {cmd : Command} {port owner : Nat}
    (h : cmd.endsLock port owner = true) :
    cmd.waitsFor port owner = false := by
  cases cmd with
  | storeCond =>
    simp only [endsLock, beq_iff_eq] at h
    simp only [waitsFor, h, bne_self_eq_false, Bool.and_false]
  | loadLocked => cases h
  | _ => rfl

theorem isExclusive_of_endsLock {cmd : Command} {port owner : Nat}
    (h : cmd.endsLock port owner = true) :
    cmd.isExclusive = true :=
  (isExclusive_eq_endsLock (not_waitsFor_of_endsLock h)).trans h

end Command

namespace LockTable

variable {t : LockTable} {addr port now : Nat} {cmd : Command} {lock : Lock}

/-! ### Operations on a locked address -/

theorem isExpired_eq_false_iff (hpos : 0 < t.timeout) :
    t.isExpired lock now = false ↔ now < lock.acquiredAt + t.timeout := by
  unfold isExpired
  rw [decide_eq_false_iff_not]
  omega

/-- **The check of an access to an address with a live lock.** -/
theorem check_of_live (hlock : t.locks.get? addr = some lock)
    (hlive : t.isExpired lock now = false) :
    (t.check addr port now cmd).value =
      if cmd.waitsFor port lock.owner = true then (.blocked lock.owner, t)
      else if cmd.endsLock port lock.owner = true then
        (.released, { t with locks := t.locks.erase addr })
      else (.free, t) := by
  unfold check
  simp only [hlock, hlive, Bool.not_false, Bool.and_true, Bool.false_or]
  by_cases hwaits : (cmd.isLinked && lock.owner != port) = true
  · simp only [Command.waitsFor, hwaits, if_true]
  · have hgoes : cmd.waitsFor port lock.owner = false := Bool.not_eq_true _ ▸ hwaits
    rw [if_neg hwaits, hgoes, Command.isExclusive_eq_endsLock hgoes]
    cases cmd.endsLock port lock.owner <;> rfl

/-- Whatever the clock shows, an access that ends the lock drops it. -/
theorem check_of_endsLock (hlock : t.locks.get? addr = some lock)
    (hends : cmd.endsLock port lock.owner = true) : (t.check addr port now cmd).value =
      (.released, { t with locks := t.locks.erase addr }) := by
  have hwaits := Command.not_waitsFor_of_endsLock hends
  unfold Command.waitsFor at hwaits
  unfold check
  simp only [hlock, hwaits, Bool.false_and, Bool.false_eq_true, if_false,
    Command.isExclusive_of_endsLock hends, Bool.or_true, if_true]

theorem acquire_of_live (hlock : t.locks.get? addr = some lock)
    (hlive : t.isExpired lock now = false) :
    t.acquire addr port now = if lock.owner = port then .ok t
      else .error (.lockOwnerMismatch addr lock.owner port) := by
  unfold acquire
  simp only [hlock, hlive, Bool.false_eq_true, if_false]

/-- Where there is no live lock, an acquisition makes one. -/
theorem acquire_of_not_live
    (h : ∀ lock, t.locks.get? addr = some lock → t.isExpired lock now = true) :
    t.acquire addr port now = .ok { t with locks := t.locks.insert addr ⟨port, now⟩ } := by
  unfold acquire
  cases hlock : t.locks.get? addr with
  | none => rfl
  | some lock => simp only [h lock hlock, if_true]

theorem get?_expire_of_expired (hlock : t.locks.get? addr = some lock)
    (hexpired : t.isExpired lock now = true) : (t.expire now).2.locks.get? addr = none := by
  rw [Option.eq_none_iff_forall_ne_some]
  intro lock' hlock'
  obtain ⟨hmem, hyoung⟩ := List.mem_filter.mp ((AscMap.mem_entries_iff _ _ _).mpr hlock')
  have hsame := (AscMap.mem_entries_iff _ _ _).mp hmem
  rw [hlock, Option.some.injEq] at hsame
  subst hsame
  unfold isExpired at hexpired
  simp only [decide_eq_true_eq] at hexpired hyoung
  omega

/-! ### Calls -/

/-- A call to a table of locks. -/
inductive Call where
  /-- May an access go ahead? -/
  | check (addr port now : Nat) (cmd : Command)
  /-- Lock an address for a port. -/
  | acquire (addr port now : Nat)
  /-- Drop the locks that have run out of time. -/
  | expire (now : Nat)
  deriving DecidableEq, Repr

/-- What the clock shows when a call is made. -/
def Call.time : Call → Nat
  | check _ _ now _ | acquire _ _ now | expire now => now

/-- A call that is the check of an access which ends the lock of an owner on an
address. -/
def Call.endsLock (addr owner : Nat) : Call → Bool
  | check addr' port _ cmd => addr' == addr && cmd.endsLock port owner
  | acquire .. | expire _ => false

/-- The table after a call.  An acquisition that fails leaves it as it is. -/
def call (t : LockTable) : Call → LockTable
  | .check addr port now cmd => (t.check addr port now cmd).value.2
  | .acquire addr port now =>
      match t.acquire addr port now with
      | .ok t' => t'
      | .error _ => t
  | .expire now => (t.expire now).2

/-- The table after some calls. -/
def calls (t : LockTable) (cs : List Call) : LockTable := cs.foldl call t

@[simp] theorem calls_nil (t : LockTable) : t.calls [] = t := rfl

@[simp] theorem calls_cons (t : LockTable) (c : Call) (cs : List Call) :
    t.calls (c :: cs) = (t.call c).calls cs := rfl

/-- No call changes how long locks live. -/
theorem timeout_call (t : LockTable) (c : Call) : (t.call c).timeout = t.timeout := by
  cases c with
  | check addr port now cmd => exact timeout_of_check rfl
  | acquire addr port now =>
    unfold call
    simp only
    cases hacquire : t.acquire addr port now with
    | ok t' => exact timeout_of_acquire hacquire
    | error v => rfl
  | expire now => rfl

theorem timeout_calls (t : LockTable) (cs : List Call) : (t.calls cs).timeout = t.timeout := by
  induction cs generalizing t with
  | nil => rfl
  | cons c rest ih => rw [calls_cons, ih, timeout_call]

/-- **A lock outlives a call** that is made before its time is over and does not
end it. -/
theorem held_call (hpos : 0 < t.timeout) (hlock : t.locks.get? addr = some lock) {c : Call}
    (hyoung : c.time < lock.acquiredAt + t.timeout) (hends : c.endsLock addr lock.owner = false) :
    (t.call c).locks.get? addr = some lock := by
  have hlive := (isExpired_eq_false_iff hpos).mpr hyoung
  cases c with
  | check addr' port now cmd =>
    rcases get?_of_check (c := (t.check addr' port now cmd).value.1) hlock hlive rfl with
      hkept | ⟨rfl, hstore, hpassed⟩
    · exact hkept
    · -- the access would have to end the lock, or to wait for it
      have hvalue : (t.check addr' port now cmd).value = _ := check_of_live hlock hlive
      simp only [Call.endsLock, BEq.rfl, Bool.true_and] at hends
      by_cases hwaits : cmd.waitsFor port lock.owner = true
      · rw [if_pos hwaits] at hvalue
        rw [hvalue] at hpassed
        cases hpassed
      · rw [Command.isExclusive_eq_endsLock (Bool.not_eq_true _ ▸ hwaits), hends] at hstore
        cases hstore
  | acquire addr' port now =>
    unfold call
    simp only
    cases hacquire : t.acquire addr' port now with
    | ok t' => exact get?_of_acquire hlock hlive hacquire
    | error v => exact hlock
  | expire now => exact get?_of_expire hlock hlive

/-- **A lock outlives all calls** that are made before its time is over and do
not end it. -/
theorem held_calls (hpos : 0 < t.timeout) (hlock : t.locks.get? addr = some lock) {cs : List Call}
    (h : ∀ c ∈ cs, c.time < lock.acquiredAt + t.timeout ∧
      c.endsLock addr lock.owner = false) :
    (t.calls cs).locks.get? addr = some lock := by
  induction cs generalizing t with
  | nil => exact hlock
  | cons c rest ih =>
    obtain ⟨⟨hyoung, hends⟩, hrest⟩ := List.forall_mem_cons.mp h
    rw [calls_cons]
    refine ih (timeout_call t c ▸ hpos) (held_call hpos hlock hyoung hends) ?_
    rw [timeout_call]
    exact hrest

/-! ### What a lock does -/

/-- What a table that holds a lock on an address answers, and what becomes of
the lock. -/
structure Guards (t : LockTable) (addr : Nat) (lock : Lock) : Prop where
  /-- The lock is there as it was made. -/
  held : t.locks.get? addr = some lock
  /-- The linked accesses of other ports have to wait. -/
  blocks : ∀ port now cmd, now < lock.acquiredAt + t.timeout → cmd.isLinked = true →
    port ≠ lock.owner → (t.check addr port now cmd).value = (.blocked lock.owner, t)
  /-- All other accesses that do not end the lock go ahead. -/
  passes : ∀ port now cmd, now < lock.acquiredAt + t.timeout →
    (cmd.isLinked = true → port = lock.owner) → cmd.endsLock port lock.owner = false →
      (t.check addr port now cmd).value = (.free, t)
  /-- No other port can lock the address. -/
  refuses : ∀ port now, now < lock.acquiredAt + t.timeout → port ≠ lock.owner →
    t.acquire addr port now = .error (.lockOwnerMismatch addr lock.owner port)
  /-- The owner can, and the lock stays as old as it is. -/
  keeps : ∀ now, now < lock.acquiredAt + t.timeout → t.acquire addr lock.owner now = .ok t
  /-- An access that ends the lock drops it, and no other lock. -/
  ends : ∀ port now cmd, cmd.endsLock port lock.owner = true →
    ∃ t', (t.check addr port now cmd).value = (.released, t') ∧ t'.timeout = t.timeout ∧
      ∀ a, t'.locks.get? a = if a = addr then none else t.locks.get? a
  /-- A sweep after its time drops it. -/
  expires : ∀ now, lock.acquiredAt + t.timeout ≤ now → (t.expire now).2.locks.get? addr = none

theorem guards_of_held (hpos : 0 < t.timeout) (hlock : t.locks.get? addr = some lock) :
    t.Guards addr lock where
  held := hlock
  blocks port now cmd hyoung hlinked hother := by
    have hwaits : cmd.waitsFor port lock.owner = true := by
      simp only [Command.waitsFor, hlinked, Bool.true_and, bne_iff_ne]
      exact hother.symm
    rw [check_of_live hlock ((isExpired_eq_false_iff hpos).mpr hyoung), if_pos hwaits]
  passes port now cmd hyoung howner hends := by
    have hwaits : ¬ cmd.waitsFor port lock.owner = true := by
      simp only [Command.waitsFor, Bool.and_eq_true, bne_iff_ne, not_and, not_not]
      exact fun hlinked => (howner hlinked).symm
    rw [check_of_live hlock ((isExpired_eq_false_iff hpos).mpr hyoung), if_neg hwaits, hends]
    rfl
  refuses port now hyoung hother := by
    rw [acquire_of_live hlock ((isExpired_eq_false_iff hpos).mpr hyoung), if_neg hother.symm]
  keeps now hyoung := by
    rw [acquire_of_live hlock ((isExpired_eq_false_iff hpos).mpr hyoung), if_pos rfl]
  ends port now cmd hends := by
    refine ⟨_, check_of_endsLock hlock hends, rfl, fun a => ?_⟩
    rw [AscMap.get?_erase]
    simp only [eq_comm]
  expires now hold := by
    apply get?_expire_of_expired hlock
    rw [← Bool.not_eq_false, isExpired_eq_false_iff hpos]
    omega

end LockTable

/-- **A lock that was taken anew is kept and respected until it ends.**  Take
any table that came about by calls, and an address without a live lock in it.  A
port can lock the address then.  Afterwards there may be any calls, for any
addresses, by any ports, and whatever the clock shows, as long as it shows less
than the time at which the lock runs out, and as long as no access to the
address is checked that ends the lock.  The lock is still there, it holds back
the linked accesses of other ports and nothing else, and the next access that
ends it, or the next sweep after its time, drops it. -/
theorem lock_guards {timeout : Nat} {new : LockTable} (hnew : LockTable.new timeout = .ok new)
    (earlier : List LockTable.Call) {addr owner since : Nat}
    (hfree : ∀ lock, (new.calls earlier).locks.get? addr = some lock →
      (new.calls earlier).isExpired lock since = true) :
    ∃ t, (new.calls earlier).acquire addr owner since = .ok t ∧ ∀ later : List LockTable.Call,
      (∀ c ∈ later, c.time < since + timeout ∧ c.endsLock addr owner = false) →
        (t.calls later).timeout = timeout ∧ (t.calls later).Guards addr ⟨owner, since⟩ := by
  have hpos : 0 < timeout ∧ new.timeout = timeout := by
    unfold LockTable.new at hnew
    split at hnew
    · cases hnew
    · cases hnew
      exact ⟨by omega, rfl⟩
  obtain ⟨hpos, htimeout⟩ := hpos
  refine ⟨_, LockTable.acquire_of_not_live hfree, fun later hlater => ?_⟩
  generalize ht : ({ new.calls earlier with
    locks := (new.calls earlier).locks.insert addr ⟨owner, since⟩ } : LockTable) = t
  have hage : t.timeout = timeout := by
    rw [← ht]
    exact (LockTable.timeout_calls new earlier).trans htimeout
  have hlock : t.locks.get? addr = some ⟨owner, since⟩ := by
    rw [← ht, AscMap.get?_insert, if_pos rfl]
  have hkept : (t.calls later).timeout = timeout := (LockTable.timeout_calls t later).trans hage
  refine ⟨hkept, LockTable.guards_of_held (hkept ▸ hpos) ?_⟩
  exact LockTable.held_calls (hage ▸ hpos) hlock (hage ▸ hlater)

/-- Calls on the locked address and on another, at times before and after the
lock was taken, and none that ends it. -/
def idleCalls : List LockTable.Call :=
  [.check 0x100 1 39 .loadLocked, .acquire 0x100 2 3, .check 0x100 3 12 .storeCond, .expire 39,
    .check 0x40 3 12 .write, .acquire 0x100 0 38]

/-- After them the lock still holds back another port, and a sweep drops it when
its time is over. -/
theorem lock_guards_idleCalls : ∃ new t, LockTable.new 30 = .ok new ∧
    (new.calls [.acquire 0x40 5 1]).acquire 0x100 0 10 = .ok t ∧
      ((t.calls idleCalls).check 0x100 1 39 .storeCond).value.1 = .blocked 0 ∧
      ((t.calls idleCalls).check 0x100 0 39 .storeCond).value.1 = .released ∧
      ((t.calls idleCalls).expire 40).2.locks.get? 0x100 = none := by
  have hnew : LockTable.new 30 = .ok ⟨30, ∅⟩ := rfl
  have hfree : ((⟨30, ∅⟩ : LockTable).calls [.acquire 0x40 5 1]).locks.get? 0x100 = none :=
    rfl
  obtain ⟨t, hacquire, hguards⟩ := @lock_guards 30 _ hnew [.acquire 0x40 5 1] 0x100 0 10
    fun lock hlock => nomatch hfree.symm.trans hlock
  obtain ⟨htimeout, h⟩ := hguards idleCalls (by decide)
  have hyoung : 39 < 10 + (t.calls idleCalls).timeout := by omega
  have hold : 10 + (t.calls idleCalls).timeout ≤ 40 := by omega
  obtain ⟨t', hreleased, -⟩ := h.ends 0 39 .storeCond rfl
  exact ⟨_, t, hnew, hacquire,
    congrArg Prod.fst (h.blocks 1 39 .storeCond hyoung rfl (by decide)),
    congrArg Prod.fst hreleased, h.expires 40 hold⟩

end MemPort
