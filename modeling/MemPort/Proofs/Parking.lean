import MemPort.Proofs.LockExclusion
import MemPort.Proofs.Retries
import MemPort.Proofs.Rotation

/-!
# A parked port waits for a lock

A port is parked when its head runs into the live lock of another port.  It
stays parked for as long as that lock stands: whatever drops a lock — a store,
a timeout met by a check, or the sweep at the beginning of a cycle — lets all
parked ports try again, even if the step that dropped it then fails.

So no wake-up is lost, and issue is work-conserving: a cycle that leaves room in
its budget, to a memory that takes requests, leaves no head behind that could
have gone out.

## Main definitions

* `Waits` — the head of a parked port is a linked access to an address that
  another port has locked.
* `Allocator.Unexpired` — no lock has run out of time.

## Main results

* `locks_kept_or_unparked` — a piece of a run keeps every lock, or lets all
  ports try again.
* `idle_of_turnMoments` — turns that end with room in the budget end because
  nothing is visible.
* `no_lost_wakeup` — over a run, every parked port waits for a lock, and a
  cycle is work-conserving.

## References

`SPEC_FULL.md`, section 4.4, step 4: a blocked port is marked; section 4.3 and
section 10.6, item 5: when the mark is cleared.
-/

namespace MemPort

/-! ### Locks that are not dropped -/

namespace LockTable

variable {t t' t'' : LockTable} {addr port now : Nat} {cmd : Command}

/-- A check that drops no lock changes nothing. -/
theorem eq_of_check {c : LockCheck} (h : (t.check addr port now cmd).value = (c, t'))
    (hc : c ≠ .released) : t' = t := by
  cases checked_of_check h with
  | released => exact absurd rfl hc
  | _ => rfl

/-- After a check that met no obstacle and dropped no lock, the lock on the
address is at most that of the port itself, and alive. -/
theorem owner_of_check {lock : Lock} (h : (t.check addr port now .loadLocked).value = (.free, t'))
    (hlock : t.locks.get? addr = some lock) :
    lock.owner = port ∧ t.isExpired lock now = false := by
  cases checked_of_check h with
  | vacant hnone =>
    rw [hlock] at hnone
    cases hnone
  | passed hlock' hown hlive _ =>
    rw [hlock] at hlock'
    cases hlock'
    exact ⟨hown rfl, hlive⟩

/-- A request that met no obstacle keeps all locks. -/
theorem get?_of_free {sent : BackendRequest} {addr' : Nat} {lock : Lock}
    (h : (t.check addr port now cmd).value = (.free, t')) (hcmd : sent.cmd = cmd)
    (haddr : cmd = .loadLocked → sent.addr = addr) (hlocks : t'.lockFor port now sent = .ok t'')
    (hlock : t.locks.get? addr' = some lock) : t''.locks.get? addr' = some lock := by
  have hsame := eq_of_check h nofun
  subst hsame
  unfold lockFor at hlocks
  split at hlocks
  · rename_i hll
    rw [hcmd] at hll
    rw [haddr hll] at hlocks
    subst hll
    cases acquired_of_acquire hlocks with
    | locked hfree =>
      -- the new lock is on another address, where no live lock stands
      have hne : addr ≠ addr' := by
        rintro rfl
        have hlive := (owner_of_check h hlock).2
        rw [hfree lock hlock] at hlive
        cases hlive
      rw [AscMap.get?_insert, if_neg hne]
      exact hlock
    | kept => exact hlock
  · cases hlocks
    exact hlock

/-- A sweep that drops no lock changes nothing. -/
theorem expire_eq (h : (t.expire now).1 = 0) : (t.expire now).2 = t := by
  unfold expire at h ⊢
  have hall : (t.locks.filter fun _ lock => now - lock.acquiredAt < t.timeout) = t.locks := by
    refine AscMap.ext_entries ?_
    unfold AscMap.filter
    simp only
    refine List.filter_eq_self.mpr fun e he => ?_
    have hsize : t.locks.size ≤
        (t.locks.filter fun _ lock => now - lock.acquiredAt < t.timeout).size :=
        Nat.sub_eq_zero_iff_le.mp h
    unfold AscMap.size AscMap.filter at hsize
    exact List.length_filter_eq_length_iff.mp
      (Nat.le_antisymm (List.length_filter_le ..) hsize) e he
  simp only [hall]

/-- No lock is left after a sweep that has run out of time. -/
theorem live_of_expire {lock : Lock} (h : (t.expire now).2.locks.get? addr = some lock) :
    (t.expire now).2.isExpired lock now = false := by
  rw [← AscMap.mem_entries_iff] at h
  have hkept := (List.mem_filter.mp h).2
  unfold isExpired
  simp only [decide_eq_true_eq] at hkept
  simp only [decide_eq_false_iff_not]
  unfold expire
  simp only
  omega

end LockTable

section Genuine

variable {σ : Type} [Requestors σ] [Backend σ]

/-! ### A piece that drops a lock -/

/-- Every lock still stands. -/
def LocksKept (a b : Allocator) : Prop :=
  ∀ addr lock, a.locks.locks.get? addr = some lock → b.locks.locks.get? addr = some lock

/-- No port is parked. -/
def Allocator.NoneParked (a : Allocator) : Prop :=
  ∀ (port : Nat) (p : RequestorPort), a.ports[port]? = some p → p.locked = false

omit [Requestors σ] [Backend σ] in
theorem Allocator.noneParked_unparkAll {a b : Allocator} (h : b.ports = a.unparkAll.ports) :
    b.NoneParked := by
  intro port p hp
  rw [h] at hp
  unfold unparkAll at hp
  simp only [List.getElem?_map, Option.map_eq_some_iff] at hp
  obtain ⟨p₀, -, rfl⟩ := hp
  rfl

omit [Backend σ] in
/-- Retiring parks nobody. -/
theorem Retired.noneParked {now : Nat} {ports : List Nat} {a b : Allocator} {s t : σ}
    (h : Retired now ports (a.ports, s) (b.ports, t)) (hnodup : ports.Nodup)
    (ha : a.NoneParked) : b.NoneParked := by
  intro q p hp
  obtain ⟨hmem, hkept⟩ := h.get? hnodup q
  by_cases hq : q ∈ ports
  · obtain ⟨p₁, e, p', -, hpop, hp'⟩ := hmem hq
    rw [show b.ports[q]? = _ from hp'] at hp
    cases hp
    exact (RequestorPort.queue_pop? hpop).2
  · exact ha q p ((hkept hq).symm.trans hp)

/-- Serving a head parks nobody. -/
theorem Assembly.Served.noneParked {m m' : Assembly σ} {now granted : Nat} {request : Coalesced}
    {result : Except Failure Turn} (h : Assembly.Served m now granted request result m')
    (hok : ∀ a, result ≠ .error (.assertion a)) (hnodup : request.ports.Nodup)
    (hnone : m.allocator.NoneParked) : m'.allocator.NoneParked := by
  cases h with
  | broken a => exact absurd rfl (hok a)
  | duplicate _ h _ => rwa [h]
  | refused h =>
    obtain ⟨stats, ha⟩ := h.allocator
    rw [ha]
    exact hnone
  | sent h _ =>
    obtain ⟨s, notices, t, -, -, hretired⟩ := h.retired
    exact hretired.noneParked hnodup hnone
  | folded h _ => exact h.retired.noneParked hnodup hnone

/-- **A turn keeps every lock, or lets all ports try again.** -/
theorem locks_kept_turned {m m' : Assembly σ} {now : Nat} {result : Except Failure Turn}
    (h : Assembly.Turned m now result m') (hok : ∀ a, result ≠ .error (.assertion a)) :
    LocksKept m.allocator m'.allocator ∨ m'.allocator.NoneParked := by
  cases h with
  | idle _ => exact Or.inl fun _ _ => id
  | parked _ _ ha _ _ =>
    obtain ⟨p, stats, -, ha⟩ := ha
    rw [ha]
    exact Or.inl fun _ _ => id
  | spilled hcleared _ _ _ =>
    obtain ⟨c, table, ports, stats, hcheck, hc, hports, ha⟩ := hcleared.allocator
    by_cases hreleased : c = .released
    · rw [if_pos hreleased] at hports
      exact Or.inr (Allocator.noneParked_unparkAll (by rw [ha]; exact hports))
    · rw [ha, LockTable.eq_of_check hcheck hreleased]
      exact Or.inl fun _ _ => id
  | @served m₁ _ granted head request _ hcleared hformed hserved =>
    obtain ⟨c, table, ports, stats, hcheck, hc, hports, ha⟩ := hcleared.allocator
    by_cases hreleased : c = .released
    · -- a lock was dropped, and whatever follows parks nobody
      rw [if_pos hreleased] at hports
      have hnone : m₁.allocator.NoneParked :=
        Allocator.noneParked_unparkAll (by rw [ha]; exact hports)
      exact Or.inr (hserved.noneParked hok hformed.nodup hnone)
    · have htable := LockTable.eq_of_check hcheck hreleased
      left
      cases hserved with
      | broken a => exact absurd rfl (hok a)
      | duplicate _ h _ =>
        rw [h, ha, htable]
        exact fun _ _ => id
      | refused h =>
        obtain ⟨stats', ha'⟩ := h.allocator
        rw [ha', ha, htable]
        exact fun _ _ => id
      | sent h _ =>
        obtain ⟨ports', stats', locks, hlocks, ha'⟩ := h.allocator
        have hfree : c = .free := by
          cases c with
          | free => rfl
          | blocked owner => cases hc
          | released => exact absurd rfl hreleased
        rw [hfree] at hcheck
        rw [ha] at hlocks
        rw [ha']
        intro addr lock hlock
        refine LockTable.get?_of_free hcheck ?_ ?_ hlocks hlock
        · rw [h.sent_eq, Coalesced.cmd_toBackend, hformed.cmd_eq]
        · intro hll
          rw [h.sent_eq, Coalesced.addr_toBackend, hformed.first]
          rw [hformed.cmd_eq, hll]
          decide
      | folded h _ =>
        obtain ⟨pending, merged, ports', stats', -, -, ha'⟩ := h.allocator
        rw [ha', ha, htable]
        exact fun _ _ => id

/-- **A piece of a run keeps every lock, or lets all ports try again.** -/
theorem locks_kept_or_unparked {x : Moment σ} (h : x.Genuine) (hok : x.event.isBroken = false) :
    LocksKept x.before.allocator x.after.allocator ∨ x.after.allocator.NoneParked := by
  have heffect := effect_of_genuine h hok
  -- for most events the table stays as it is
  have hsame : x.after.allocator.locks = x.before.allocator.locks →
      LocksKept x.before.allocator x.after.allocator := by
    intro heq addr lock hlock
    rwa [heq]
  by_cases hmemory : x.event.isFromMemory = true
  · obtain ⟨backendPort, outstanding, stats, _, ha⟩ := heffect.frame_fromMemory hmemory
    exact Or.inl (hsame (by rw [ha]))
  -- a requestor calls, or the allocator does something by itself
  cases h with
  | swept m now =>
    -- a sweep drops expired locks, and then it unparks every port
    rcases swept_cases m now with hports | ⟨-, hnone⟩
    · exact Or.inr (Allocator.noneParked_unparkAll hports)
    · left
      cases heffect with
      | swept ha _ _ =>
        obtain ⟨ports, stats, ha⟩ := ha
        refine hsame ?_
        rw [ha]
        exact LockTable.expire_eq hnone
  | turned m now hbusy =>
    cases heffect with
    | turned _ hresult h => exact locks_kept_turned h hresult
  | submitted m now port txn =>
    left
    generalize (m.submit now port txn).result = result at heffect
    cases heffect with
    | submitted ha _ _ =>
      obtain ⟨ports, stats, ha⟩ := ha
      exact hsame (by rw [ha])
  | performed m now port txn =>
    left
    generalize (m.accessFunctional now port txn).result = result at heffect
    cases heffect with
    | performed ha _ =>
      obtain ⟨stats, ha⟩ := ha
      exact hsame (by rw [ha])
    | rejected heq => exact hsame (by rw [heq])
  | interrupted m now a => cases hok
  | checked m now =>
    cases heffect with
    | checked ha _ =>
      obtain ⟨next, ha⟩ := ha
      exact Or.inl (hsame (by rw [ha]))
  | _ => exact absurd rfl hmemory

/-! ### Parked ports -/

/-- While a port is parked, its head is a linked access to an address that
another port has locked. -/
def Waits (a : Allocator) (port : Nat) (p : RequestorPort) : Prop :=
  p.locked = true → ∃ head, p.queue.front? = some head ∧ head.payload.cmd.isLinked = true ∧
    ∃ lock, a.locks.locks.get? head.payload.addr = some lock ∧ lock.owner ≠ port

omit [Requestors σ] [Backend σ] in
/-- A parked port still waits if its head and its lock are still there. -/
theorem Waits.of_front {a b : Allocator} {port : Nat} {p p' : RequestorPort} (h : Waits a port p)
    (hopen : p'.locked = true → p.locked = true)
    (hfront : ∀ head, p.queue.front? = some head → p'.queue.front? = some head)
    (hlocks : p'.locked = true → LocksKept a b) : Waits b port p' := by
  intro hl
  obtain ⟨head, hhead, hlinked, lock, hlock, howner⟩ := h (hopen hl)
  exact ⟨head, hfront head hhead, hlinked, lock, hlocks hl _ _ hlock, howner⟩

omit [Requestors σ] [Backend σ] in
theorem LockTable.linked_of_blocked {t : LockTable} {addr port now owner : Nat} {cmd : Command}
    (h : (t.check addr port now cmd).value.1 = .blocked owner) :
    cmd.isLinked = true ∧ ∃ lock, t.locks.get? addr = some lock ∧ lock.owner ≠ port := by
  have hchecked := t.checked_check addr port now cmd
  rw [h] at hchecked
  generalize (t.check addr port now cmd).value.2 = t' at hchecked
  cases hchecked with
  | blocked hlock hlinked hother _ => exact ⟨hlinked, _, hlock, hother⟩

omit [Requestors σ] [Backend σ] in
/-- A visible head is the front of its queue. -/
theorem RequestorPort.front?_of_head? {p : RequestorPort} {now : Nat} {txn : Transaction}
    (h : p.head? now = some txn) : ∃ e, p.queue.front? = some e ∧ e.payload = txn := by
  obtain ⟨-, hpeek⟩ := head?_eq_some_iff.mp h
  unfold TimedQueue.peek? at hpeek
  obtain ⟨e, he, hpayload⟩ := Option.map_eq_some_iff.mp hpeek
  exact ⟨e, (Option.filter_eq_some_iff.mp he).1, hpayload⟩

/-- **A port that a turn parks waits for a lock.** -/
theorem waits_parked {m m' : Assembly σ} {now port : Nat}
    (h : Assembly.Turned m now (.ok (.parked port)) m') {p p' : RequestorPort}
    (hp : m.allocator.ports[port]? = some p) (hqueue : p'.queue = p.queue) :
    Waits m'.allocator port p' := by
  cases h with
  | parked hgrant hcheck ha _ _ =>
    obtain ⟨p₀, stats, hp₀, ha⟩ := ha
    obtain ⟨-, hvisible⟩ := Allocator.grant?_eq_some_iff.mp hgrant
    obtain ⟨q, hq, hhead⟩ := Allocator.headAt?_eq_some_iff.mp hvisible
    rw [hp] at hq
    cases hq
    obtain ⟨e, he, hpayload⟩ := RequestorPort.front?_of_head? hhead
    obtain ⟨hlinked, lock, hlock, howner⟩ := LockTable.linked_of_blocked hcheck
    intro _
    rw [hqueue, ha]
    rw [← hpayload] at hlinked hlock
    exact ⟨e, he, hlinked, lock, hlock, howner⟩
  | served _ _ hserved => cases hserved

/-- **A parked port waits for its lock after every piece of a run.** -/
theorem Waits.step {x : Moment σ} (hx : x.Genuine) (hok : x.event.isBroken = false) {port n : Nat}
    {p p' : RequestorPort} (hp : x.before.allocator.ports[port]? = some p)
    (hp' : x.after.allocator.ports[port]? = some p') (hstep : FrontStep port x.event n p p')
    (h : Waits x.before.allocator port p) : Waits x.after.allocator port p' := by
  -- a port that is still parked shows that no lock was dropped
  have hlocks : p'.locked = true → LocksKept x.before.allocator x.after.allocator := by
    intro hl
    rcases locks_kept_or_unparked hx hok with hkept | hnone
    · exact hkept
    · rw [hnone port p' hp'] at hl
      cases hl
  cases hstep with
  | kept hqueue _ hlocked _ _ =>
    by_cases hl : p.locked = true
    · exact h.of_front (fun _ => hl) (fun head hhead => hqueue ▸ hhead) hlocks
    · by_cases hl' : p'.locked = true
      · obtain ⟨now, he⟩ := (hlocked hl').resolve_left hl
        have heffect := effect_of_genuine hx hok
        rw [he] at heffect
        cases heffect with
        | turned _ _ hturned => exact waits_parked hturned hp hqueue
      · exact fun hl'' => absurd hl'' hl'
  | admitted _ hpush =>
    refine h.of_front id (fun head hhead => ?_) hlocks
    unfold TimedQueue.front? at hhead ⊢
    rw [(TimedQueue.entries_push? hpush).1, List.head?_append, hhead]
    rfl
  | refused _ _ => exact h.of_front id (fun _ => id) hlocks
  | retired _ _ _ _ hopen =>
    intro hl
    rw [hopen] at hl
    cases hl

omit [Requestors σ] [Backend σ] in
theorem FrontStep.latency_eq {port n : Nat} {e : Event} {p p' : RequestorPort}
    (h : FrontStep port e n p p') : p'.queue.latency = p.queue.latency := by
  cases h with
  | kept hqueue _ _ _ _ => rw [hqueue]
  | admitted _ hpush => exact (TimedQueue.entries_push? hpush).2.1
  | refused _ _ => rfl
  | retired _ _ hpop _ _ => exact (TimedQueue.entries_pop? hpop).2.2.1

/-- Over a run, a parked port waits for a lock and keeps its latency. -/
theorem Linked.waits {m : Assembly (Recorded σ)} {ms : List (Moment σ)} (h : Linked m ms)
    (hok : Unbroken ms) {port : Nat} {p : RequestorPort}
    (hp : m.allocator.ports[port]? = some p) (hwaits : Waits m.allocator port p) :
    ∃ p', (endOf m ms).allocator.ports[port]? = some p' ∧
      Waits (endOf m ms).allocator port p' ∧ p'.queue.latency = p.queue.latency := by
  refine Linked.induct (P := fun _ m' => ∃ p', m'.allocator.ports[port]? = some p' ∧
    Waits m'.allocator port p' ∧ p'.queue.latency = p.queue.latency) (R := fun _ => True)
    ⟨p, hp, hwaits, rfl⟩ ?_ h hok fun _ _ => trivial
  rintro _ x ⟨p₁, hp₁, hwaits₁, hlatency⟩ hx hokx -
  obtain ⟨p₂, hp₂, hstep⟩ := hx.frontStep hokx hp₁
  exact ⟨p₂, hp₂, hwaits₁.step hx hokx hp₁ hp₂ hstep, hstep.latency_eq.trans hlatency⟩

/-! ### Turns that leave room in the budget -/

omit [Requestors σ] [Backend σ] in
theorem Event.length_sent_turned (now : Nat) (turn : Turn) :
    (Event.sent (.turned now (.ok turn))).length = turn.cost := by
  cases turn <;> rfl

omit [Requestors σ] [Backend σ] in
theorem length_sentIn_cons (e : Event) (es : List Event) :
    (sentIn (e :: es)).length = e.sent.length + (sentIn es).length := by
  unfold sentIn
  rw [List.flatMap_cons, List.length_append]

/-- **Turns that leave room in the budget, to a memory that takes requests, end
because no port has a visible head.** -/
theorem idle_of_turnMoments {now issued : Nat} {m : Assembly (Recorded σ)}
    (hnone : failureIn (m.turnMoments now issued) = none)
    (hopen : (endOf m (m.turnMoments now issued)).allocator.backendPort.busy = false)
    (hroom : issued + (sentIn ((m.turnMoments now issued).map (·.event))).length <
      m.allocator.config.maxIssuePerCycle) :
    (endOf m (m.turnMoments now issued)).allocator.grant? now = none := by
  fun_induction Assembly.turnMoments now issued m with
  | case1 issued m hstop =>
    have hopen : m.allocator.backendPort.busy = false := hopen
    rw [hopen, Bool.false_or, decide_eq_true_iff] at hstop
    exact absurd hroom (Nat.not_lt.mpr (Nat.le_trans hstop (Nat.le_add_right _ _)))
  | case2 issued m _ e m' hturn => cases hnone
  | case3 issued m hgo turn m' hturn ih =>
    have hbusy := Allocator.not_busy hgo
    have hturned := Assembly.turned_of_issueTurn hbusy hturn
    have hgenuine := Moment.Genuine.turned m now hbusy
    rw [hturn] at hgenuine
    have hconfig : m'.allocator.config = m.allocator.config :=
      (effect_of_genuine hgenuine rfl).booked.config_eq
    rw [List.map_cons, length_sentIn_cons, Event.length_sent_turned] at hroom
    by_cases hon : turn.goesOn = true
    · -- the turns go on
      simp only [dif_pos hon] at hnone hopen hroom ⊢
      refine ih hon ?_ hopen ?_
      · unfold failureIn at hnone ⊢
        rw [List.findSome?_cons] at hnone
        exact hnone
      · rw [hconfig]
        omega
    · simp only [dif_neg hon] at hopen ⊢
      cases hturned with
      | idle hidle => exact hidle
      | parked _ _ _ _ _ => exact absurd rfl hon
      | served _ _ hserved =>
        cases hserved with
        | refused h =>
          -- a memory that refused is busy
          obtain ⟨stats, ha⟩ := h.allocator
          have hopen : m'.allocator.backendPort.busy = false := hopen
          rw [ha] at hopen
          cases hopen
        | sent _ _ => exact absurd rfl hon
        | folded _ _ => exact absurd rfl hon

/-! ### Locks in a cycle -/

/-- No lock has run out of time. -/
def Allocator.Unexpired (a : Allocator) (now : Nat) : Prop :=
  ∀ addr lock, a.locks.locks.get? addr = some lock → a.locks.isExpired lock now = false

omit [Requestors σ] [Backend σ] in
/-- A lock that is taken is alive, and so are those that were there before. -/
theorem LockTable.live_of_lockFor {t t' : LockTable} {port now : Nat} {sent : BackendRequest}
    (h : t.lockFor port now sent = .ok t') (htimeout : 0 < t.timeout)
    (hlive : ∀ addr lock, t.locks.get? addr = some lock → t.isExpired lock now = false)
    {addr : Nat} {lock : Lock} (hlock : t'.locks.get? addr = some lock) :
    t'.isExpired lock now = false := by
  rw [isExpired_of_timeout (timeout_lockFor h)]
  unfold lockFor at h
  split at h
  · cases acquired_of_acquire h with
    | locked _ =>
      rw [AscMap.get?_insert] at hlock
      split at hlock
      · -- the new lock is alive in its own cycle
        cases hlock
        unfold isExpired
        simp only [decide_eq_false_iff_not]
        omega
      · exact hlive _ _ hlock
    | kept => exact hlive _ _ hlock
  · cases h
    exact hlive _ _ hlock

/-- A turn keeps every lock alive at its cycle. -/
theorem unexpired_turned {m m' : Assembly σ} {now : Nat} {result : Except Failure Turn}
    (h : Assembly.Turned m now result m') (hok : ∀ a, result ≠ .error (.assertion a))
    (htimeout : 0 < m.allocator.locks.timeout) (hlive : m.allocator.Unexpired now) :
    m'.allocator.Unexpired now := by
  -- after the check of a lock, every lock is one that was there before
  have hcleared : ∀ {m₁ : Assembly σ} {granted : Nat} {head : Transaction},
      Assembly.Cleared m m₁ now granted head →
      m₁.allocator.Unexpired now ∧ 0 < m₁.allocator.locks.timeout := by
    intro m₁ granted head h
    obtain ⟨c, table, ports, stats, hcheck, -, -, ha⟩ := h.allocator
    have heq := LockTable.timeout_of_check hcheck
    rw [ha]
    refine ⟨fun addr lock hlock => ?_, by simp only [heq, htimeout]⟩
    simp only at hlock ⊢
    rw [LockTable.isExpired_of_timeout heq]
    have hafter : (m.allocator.locks.check head.addr granted now head.cmd).value.2.locks.get? addr =
        some lock := by
      rw [hcheck]
      exact hlock
    exact hlive addr lock (LockTable.get?_check hafter)
  cases h with
  | idle _ => exact hlive
  | parked _ _ ha _ _ =>
    obtain ⟨p, stats, -, ha⟩ := ha
    rw [ha]
    exact hlive
  | spilled h _ _ _ => exact (hcleared h).1
  | served h _ hserved =>
    obtain ⟨hlive₁, htimeout₁⟩ := hcleared h
    cases hserved with
    | broken a => exact absurd rfl (hok a)
    | duplicate _ h _ => rwa [h]
    | refused h =>
      obtain ⟨stats', ha'⟩ := h.allocator
      rw [ha']
      exact hlive₁
    | sent h _ =>
      obtain ⟨ports', stats', locks, hlocks, ha'⟩ := h.allocator
      rw [ha']
      exact fun addr lock hlock => LockTable.live_of_lockFor hlocks htimeout₁ hlive₁ hlock
    | folded h _ =>
      obtain ⟨pending, merged, ports', stats', -, -, ha'⟩ := h.allocator
      rw [ha']
      exact hlive₁

omit [Requestors σ] [Backend σ] in
theorem Allocator.unexpired_sweep (m : Assembly σ) (now : Nat) :
    (m.sweepLocks now).allocator.Unexpired now ∧
      (m.sweepLocks now).allocator.locks.timeout = m.allocator.locks.timeout := by
  have hlocks : (m.sweepLocks now).allocator.locks = (m.allocator.locks.expire now).2 := by
    obtain ⟨-, ha | ⟨-, ha⟩⟩ := m.sweepLocks_cases now <;> rw [ha]
  unfold Unexpired
  rw [hlocks]
  exact ⟨fun _ _ => LockTable.live_of_expire, rfl⟩

/-- Turns keep every lock alive at their cycle. -/
theorem Linked.unexpired {m : Assembly (Recorded σ)} {ms : List (Moment σ)} (h : Linked m ms)
    (hok : Unbroken ms) {now : Nat}
    (hturns : ∀ x ∈ ms, ∃ result, x.event = .turned now result)
    (htimeout : 0 < m.allocator.locks.timeout) (hlive : m.allocator.Unexpired now) :
    (endOf m ms).allocator.Unexpired now := by
  refine (Linked.induct (P := fun _ m' => 0 < m'.allocator.locks.timeout ∧
    m'.allocator.Unexpired now) (R := fun x => ∃ result, x.event = .turned now result)
    ⟨htimeout, hlive⟩ ?_ h hok hturns).2
  rintro _ x ⟨htimeout', hlive'⟩ hx hokx ⟨result, he⟩
  have heffect := effect_of_genuine hx hokx
  refine ⟨heffect.timeout_eq ▸ htimeout', ?_⟩
  rw [he] at heffect
  cases heffect with
  | turned _ hresult hturned => exact unexpired_turned hturned hresult htimeout' hlive'

omit [Requestors σ] [Backend σ] in
/-- A lock lives for at least a cycle. -/
theorem Allocator.lockTimeout_pos {config : AllocatorConfig} {a : Allocator}
    (h : Allocator.new config = .ok a) : 0 < config.lockTimeout := by
  obtain ⟨-, -, -, htimeout, -⟩ := AllocatorConfig.of_check (Allocator.eq_of_new h).1
  exact htimeout

/-! ### A whole cycle -/

omit [Requestors σ] [Backend σ] in
theorem eq_of_follow {m m' : Assembly (Recorded σ)} {ms : List (Moment σ)}
    {next : Assembly (Recorded σ) → List (Moment σ)}
    (h : outcomeOf m (follow m ms next) () = .ok () m') :
    failureIn ms = none ∧ follow m ms next = ms ++ next (endOf m ms) ∧
      outcomeOf (endOf m ms) (next (endOf m ms)) () = .ok () m' := by
  rw [outcomeOf_follow] at h
  unfold follow
  unfold outcomeOf at h
  cases hf : failureIn ms with
  | some e =>
    rw [hf] at h
    cases h
  | none =>
    rw [hf] at h
    exact ⟨rfl, rfl, h⟩

/-- **A cycle that does not fail** ends with turns that do not fail, after a
sweep of the locks, and a check of progress. -/
theorem pieces_of_tick {m m' : Assembly (Recorded σ)} {now : Nat} (h : m.tick now = .ok () m') :
    failureIn (m.tickMoments now) = none ∧ endOf m (m.tickMoments now) = m' ∧
      ∃ (pre : List (Moment σ)) (m₁ : Assembly (Recorded σ)),
        m.tickMoments now = (pre ++ [⟨m₁, .swept now, m₁.sweepLocks now⟩]) ++
          ((m₁.sweepLocks now).turnMoments now 0 ++
            [(endOf (m₁.sweepLocks now) ((m₁.sweepLocks now).turnMoments now 0)).checkMoment
              now]) := by
  rw [Assembly.tick_moments] at h
  obtain ⟨hnone, -, hend⟩ := outcomeOf_eq_ok_iff.mp h
  refine ⟨hnone, hend, m.responseMoments now, endOf m (m.responseMoments now), ?_⟩
  unfold Assembly.tickMoments at h ⊢
  split at h
  · cases h
  · rename_i hlanes
    rw [if_neg hlanes]
    obtain ⟨-, hfollow, h⟩ := eq_of_follow h
    obtain ⟨-, hfollow', -⟩ := eq_of_follow h
    rw [hfollow, hfollow', List.append_assoc]
    rfl

omit [Requestors σ] [Backend σ] in
/-- Where no head is visible, a port that is not parked has nothing queued that
has arrived. -/
theorem hidden_of_grant? {a : Allocator} {now port : Nat} {p : RequestorPort}
    (h : a.grant? now = none) (hport : port < a.arbiter.ports) (hp : a.ports[port]? = some p)
    (hopen : p.locked = false) : p.queue.isEmpty = true ∨
      ∃ head, p.queue.front? = some head ∧ now < head.arrivedAt + p.queue.latency := by
  have hchoose : a.arbiter.choose (a.readyMask now) = none := by
    cases hc : a.arbiter.choose (a.readyMask now) with
    | none => rfl
    | some granted =>
      -- a port that is chosen has a visible head
      obtain ⟨txn, htxn⟩ := Allocator.mem_readyPorts.mp
        (Allocator.mem_readyPorts_iff.mpr (RoundRobin.ready_of_choose hc))
      rw [Allocator.grant?_eq_some_iff.mpr ⟨hc, htxn⟩] at h
      cases h
  have hhidden := (RoundRobin.choose_eq_none_iff _ _).mp hchoose port hport
  unfold Allocator.readyMask at hhidden
  rw [List.getD_eq_getElem?_getD, List.getElem?_map, hp] at hhidden
  simp only [Option.map_some, Option.getD_some, RequestorPort.isHeadReady, hopen, Bool.not_false,
    Bool.true_and] at hhidden
  unfold TimedQueue.isHeadReady at hhidden
  cases hfront : p.queue.front? with
  | none =>
    left
    unfold TimedQueue.front? at hfront
    unfold TimedQueue.isEmpty
    rw [List.head?_eq_none_iff.mp hfront]
    rfl
  | some head =>
    rw [hfront, Option.any_some] at hhidden
    unfold Stamped.isReady at hhidden
    rw [decide_eq_false_iff_not, Nat.not_le] at hhidden
    exact Or.inr ⟨head, rfl, Nat.lt_of_lt_of_le hhidden (satAdd_le_add _ _)⟩

/-- **A cycle that leaves room in its budget**, and the memory ready to take
requests, leaves no visible head and no lock that has run out of time. -/
theorem spent_of_tick {m m' : Assembly (Recorded σ)} {now : Nat} (h : m.tick now = .ok () m')
    (hbusy : m'.allocator.backendPort.busy = false)
    (hroom : (sentIn ((m.tickMoments now).map (·.event))).length <
      m.allocator.config.maxIssuePerCycle) (htimeout : 0 < m.allocator.locks.timeout) :
    m'.allocator.grant? now = none ∧ m'.allocator.Unexpired now := by
  obtain ⟨hnone, hend, pre, m₁, hpieces⟩ := pieces_of_tick h
  have hlinked := Assembly.linked_tickMoments now m
  have hok := unbroken_of_failureIn hnone
  -- the pieces up to the sweep, the turns, and the check
  rw [hpieces] at hnone hend hroom hlinked hok
  obtain ⟨hlinkedpre, -, -⟩ := hlinked.split
  have hokpre : Unbroken (pre ++ [⟨m₁, .swept now, m₁.sweepLocks now⟩]) := fun x hx =>
    hok x (List.mem_append_left _ hx)
  have hendpre : endOf m (pre ++ [⟨m₁, .swept now, m₁.sweepLocks now⟩]) =
      m₁.sweepLocks now :=
    endOf_append ..
  have hconfig : (m₁.sweepLocks now).allocator.config = m.allocator.config := by
    have heq := (hlinkedpre.kept hokpre).config_eq
    rw [hendpre] at heq
    exact heq
  have htimeout' : (m₁.sweepLocks now).allocator.locks.timeout = m.allocator.locks.timeout := by
    have heq := hlinkedpre.timeout_eq hokpre
    rwa [hendpre] at heq
  have hlive := (Allocator.unexpired_sweep m₁ now).1
  generalize m₁.sweepLocks now = m₂ at hnone hend hroom hok hendpre hconfig htimeout' hlive
  rw [endOf_append, hendpre, endOf_append] at hend
  have hlinkedturns := Assembly.linked_turnMoments now 0 m₂
  have hturns : ∀ x ∈ m₂.turnMoments now 0, ∃ result, x.event = .turned now result :=
    fun x hx => Assembly.turned_of_turnMoments hx
  generalize hts : m₂.turnMoments now 0 = ts at hnone hend hroom hok hlinkedturns hturns
  have hnonets : failureIn ts = none := by
    unfold failureIn at hnone ⊢
    rw [List.findSome?_eq_none_iff] at hnone ⊢
    exact fun x hx => hnone x (List.mem_append_right _ (List.mem_append_left _ hx))
  obtain ⟨⟨next, ha⟩, -⟩ := (endOf m₂ ts).frame_checkProgress now
  have hm' : ((endOf m₂ ts).checkProgress now).left = m' := hend
  rw [hm'] at ha
  rw [ha] at hbusy
  have hidle : (endOf m₂ ts).allocator.grant? now = none := by
    subst hts
    refine idle_of_turnMoments hnonets hbusy ?_
    simp only [List.map_append, sentIn_append, List.length_append] at hroom
    rw [hconfig]
    omega
  have hokts : Unbroken ts := unbroken_of_failureIn hnonets
  have hunexpired := hlinkedturns.unexpired hokts hturns (htimeout' ▸ htimeout) hlive
  rw [ha]
  exact ⟨hidle, hunexpired⟩

/-- **Parking loses no wake-up, and issue is work-conserving.**  At every point
of a run, a parked port has a linked access at the front of its queue, to an
address that another port has locked.  And where a cycle does not fail, leaves
room in its budget and leaves the memory ready to take requests, then on every
port nothing is queued, or the oldest transaction is not visible yet, or it is a
linked access to an address that another port has locked and whose lock is still
alive. -/
theorem no_lost_wakeup {config : AllocatorConfig} {a : Allocator}
    (hnew : Allocator.new config = .ok a) (s : σ) (j : Journal) (calls : List (Call σ))
    {ms : List (Moment σ)} (hrun : ms <+: run calls ⟨a, .start s, j⟩) (hok : Unbroken ms)
    {port : Nat} (hport : port < config.numPorts) :
    (∃ p, (endOf ⟨a, .start s, j⟩ ms).allocator.ports[port]? = some p ∧
      (p.locked = true → ∃ head, p.queue.front? = some head ∧
        head.payload.cmd.isLinked = true ∧
        ∃ lock,
          (endOf ⟨a, .start s, j⟩ ms).allocator.locks.locks.get? head.payload.addr =
            some lock ∧
          lock.owner ≠ port)) ∧
    ∀ now m', (endOf ⟨a, .start s, j⟩ ms).tick now = .ok () m' →
      m'.allocator.backendPort.busy = false →
      (sentIn (((endOf ⟨a, .start s, j⟩ ms).tickMoments now).map (·.event))).length <
        config.maxIssuePerCycle →
      ∃ p, m'.allocator.ports[port]? = some p ∧ (p.queue.isEmpty = true ∨
        ∃ head, p.queue.front? = some head ∧ (now < head.arrivedAt + config.portLatency port ∨
          head.payload.cmd.isLinked = true ∧
            ∃ lock, m'.allocator.locks.locks.get? head.payload.addr = some lock ∧
              lock.owner ≠ port ∧ now < lock.acquiredAt + config.lockTimeout)) := by
  have hlinked := (linked_run calls ⟨a, .start s, j⟩).initial hrun
  have htimeoutpos := Allocator.lockTimeout_pos hnew
  obtain ⟨-, hnew⟩ := Allocator.eq_of_new hnew
  -- where the run begins
  have hp₀ : a.ports[port]? = some (.ofLatency port (config.portLatency port)) := by
    rw [hnew]
    unfold Allocator.ofConfig
    simp only
    rw [List.getElem?_map, List.getElem?_range hport]
    rfl
  have hwaits₀ : Waits a port (.ofLatency port (config.portLatency port)) := fun hl =>
    absurd hl Bool.false_ne_true
  obtain ⟨p, hp, hwaits, -⟩ := hlinked.waits hok hp₀ hwaits₀
  refine ⟨⟨p, hp, hwaits⟩, ?_⟩
  intro now m' htick hbusy hroom
  -- the run goes on with the pieces of the cycle
  obtain ⟨hnone, hend, -⟩ := pieces_of_tick htick
  have hall := hlinked.append hok (Assembly.linked_tickMoments now (endOf ⟨a, .start s, j⟩ ms))
  have hokall : Unbroken (ms ++ (endOf ⟨a, .start s, j⟩ ms).tickMoments now) := fun x hx =>
    (List.mem_append.mp hx).elim (hok x) (unbroken_of_failureIn hnone x)
  obtain ⟨p', hp', hwaits', hlatency⟩ := hall.waits hokall hp₀ hwaits₀
  have htimeout := hall.timeout_eq hokall
  have hwidth := hall.width_eq hokall
  rw [endOf_append, hend] at hp' hwaits' htimeout hwidth
  have hconfig : (endOf ⟨a, .start s, j⟩ ms).allocator.config = config := by
    have hkept : (endOf ⟨a, .start s, j⟩ ms).allocator.config = a.config :=
      (hlinked.kept hok).config_eq
    rw [hkept, hnew]
    rfl
  have hpositive : 0 < (endOf ⟨a, .start s, j⟩ ms).allocator.locks.timeout := by
    rw [hlinked.timeout_eq hok, hnew]
    exact htimeoutpos
  obtain ⟨hidle, hlive⟩ := spent_of_tick htick hbusy (by rw [hconfig]; exact hroom) hpositive
  rw [hnew] at htimeout hwidth
  refine ⟨p', hp', ?_⟩
  cases hl : p'.locked with
  | false =>
    refine (hidden_of_grant? hidle (by rw [hwidth]; exact hport) hp' hl).imp_right ?_
    rintro ⟨head, hhead, hnow⟩
    rw [hlatency] at hnow
    exact ⟨head, hhead, Or.inl hnow⟩
  | true =>
    obtain ⟨head, hhead, hlinked, lock, hlock, howner⟩ := hwaits' hl
    refine Or.inr ⟨head, hhead, Or.inr ⟨hlinked, lock, hlock, howner, ?_⟩⟩
    have halive := hlive _ _ hlock
    unfold LockTable.isExpired at halive
    rw [htimeout, decide_eq_false_iff_not] at halive
    have halive : ¬ config.lockTimeout ≤ now - lock.acquiredAt := halive
    omega

end Genuine

/-- A load-locked of the second lane runs into the lock of the first. -/
def contendedLock : List (Call (Lanes × EchoMemory)) :=
  [.submit 0 0 (.load .loadLocked 1 256 4), .tick 0, .submit 1 1 (.load .loadLocked 2 256 4)]

/-- Where the two lanes begin. -/
def contendedLockStart : Assembly (Recorded (Lanes × EchoMemory)) :=
  ⟨.ofConfig { numPorts := 2, requestLatency := 0, lockTimeout := 30 },
    .start (Lanes.plain 2, EchoMemory.new false), .start .warn⟩

/-- The next cycle leaves the second lane behind its lock. -/
theorem no_lost_wakeup_contendedLock : ∃ m' p,
    (endOf contendedLockStart (run contendedLock contendedLockStart)).tick 1 = .ok () m' ∧
      m'.allocator.ports[1]? = some p ∧ (p.queue.isEmpty = true ∨ ∃ head,
        p.queue.front? = some head ∧
        (1 < head.arrivedAt + 0 ∨ head.payload.cmd.isLinked = true ∧
          ∃ lock, m'.allocator.locks.locks.get? head.payload.addr = some lock ∧
          lock.owner ≠ 1 ∧
            1 < lock.acquiredAt + 30)) := by
  have hnew : Allocator.new { numPorts := 2, requestLatency := 0, lockTimeout := 30 } =
      .ok contendedLockStart.allocator := by rfl
  have hafter := (no_lost_wakeup hnew (Lanes.plain 2, EchoMemory.new false) (.start .warn)
    contendedLock List.prefix_rfl (by decide +kernel) (by decide : 1 < 2)).2
  have hresult : ((endOf contendedLockStart (run contendedLock contendedLockStart)).tick 1).result =
      .ok () := by decide +kernel
  have hbusy : ((endOf contendedLockStart
      (run contendedLock contendedLockStart)).tick 1).left.allocator.backendPort.busy = false := by
    decide +kernel
  cases htick : (endOf contendedLockStart (run contendedLock contendedLockStart)).tick 1 with
  | error e m' =>
    rw [htick] at hresult
    cases hresult
  | ok _ m' =>
    rw [htick] at hbusy
    obtain ⟨p, hp, hrest⟩ := hafter 1 m' htick hbusy (by decide +kernel)
    exact ⟨m', p, rfl, hp, hrest⟩

end MemPort
