import MemPort.Proofs.Counting
import MemPort.Proofs.Folding

/-!
# What a turn does

A turn of the issue loop runs through five functions, each of which may end it.
This module says once what a whole turn can do, as a relation between the
assembly before and after, so that an invariant of the allocator is checked
against a handful of cases and never against the code of the turn.

Every case of the relation determines the allocator afterwards, up to the front
ends and the counters; of the front ends it says what is queued, which is all
that a turn's effect on transactions consists of.

## Main definitions

* `Allocator.grant?` — the port that a turn would serve, with its visible
  head.
* `LockTable.lockFor` — the lock that a request leaves behind.
* `Assembly.Sends`, `Assembly.Folds`, `Assembly.Refuses` — the three ways in
  which a head is served.
* `Assembly.Turned` — the outcomes of a turn.

## Main results

* `Assembly.turned_issueTurn` — a turn does one of these things.

## References

`SPEC_FULL.md`, section 4.4, steps 1 to 5: an iteration of the issue path.
-/

namespace MemPort

/-! ### Locks -/

/-- A check that finds no port in the way does not hold back. -/
theorem LockCheck.isBlocked_eq_false {c : LockCheck} (h : ∀ owner, c = .blocked owner → False) :
    c.isBlocked = false := by
  cases c with
  | blocked owner => exact absurd rfl (h owner)
  | free => rfl
  | released => rfl

namespace LockTable

/-- The locks after a request went out: a load-locked locks its address for its
port. -/
def lockFor (t : LockTable) (port now : Nat) (sent : BackendRequest) :
    Except InvariantViolation LockTable :=
  if sent.cmd = .loadLocked then t.acquire sent.addr port now else .ok t

/-- After a check that did not block it, a load-locked gets its lock: another
port's lock would have blocked it while alive and have been dropped
otherwise. -/
theorem acquire_of_check {t t' : LockTable} {addr port now : Nat} {c : LockCheck}
    (h : (t.check addr port now .loadLocked).value = (c, t')) (hc : c.isBlocked = false) :
    ∃ t'', t'.acquire addr port now = .ok t'' := by
  have hacquired := t'.acquired_acquire addr port now
  generalize t'.acquire addr port now = result at hacquired
  cases hacquired with
  | locked _ => exact ⟨_, rfl⟩
  | kept => exact ⟨_, rfl⟩
  | taken htaken hlive hother =>
    -- a live lock of another port would have blocked the check
    cases checked_of_check h with
    | vacant hnone =>
      rw [hnone] at htaken
      cases htaken
    | blocked => cases hc
    | released =>
      rw [AscMap.get?_erase, if_pos rfl] at htaken
      cases htaken
    | passed hlock hown _ _ =>
      rw [hlock] at htaken
      cases htaken
      exact absurd (hown rfl) hother

theorem lockFor_of_check {t t' : LockTable} {addr port now : Nat} {cmd : Command}
    {c : LockCheck} {sent : BackendRequest} (h : (t.check addr port now cmd).value = (c, t'))
    (hc : c.isBlocked = false) (hcmd : sent.cmd = cmd)
    (haddr : cmd = .loadLocked → sent.addr = addr) :
    ∃ t'', t'.lockFor port now sent = .ok t'' := by
  unfold lockFor
  rw [hcmd]
  by_cases hll : cmd = .loadLocked
  · rw [if_pos hll, haddr hll]
    rw [hll] at h
    exact acquire_of_check h hc
  · rw [if_neg hll]
    exact ⟨t', rfl⟩

end LockTable

/-! ### Ports that are ready -/

/-- A port is ready if it shows a head. -/
theorem Allocator.getD_readyMask (a : Allocator) (now port : Nat) :
    (a.readyMask now).getD port false = (a.headAt? now port).isSome := by
  unfold headAt? readyMask
  rw [List.getD_eq_getElem?_getD, List.getElem?_map]
  cases a.ports[port]? with
  | none => rfl
  | some p => exact p.isHeadReady_eq now

theorem Allocator.mem_readyPorts_iff {ready : List Bool} {port : Nat} :
    port ∈ readyPorts ready ↔ ready.getD port false = true := by
  unfold readyPorts
  rw [List.mem_filter, List.mem_range, and_iff_right_iff_imp, List.getD_eq_getElem?_getD]
  intro hready
  rw [← Nat.not_le]
  intro hle
  rw [List.getElem?_eq_none hle] at hready
  cases hready

/-- The ports that are ready are those that show a head. -/
theorem Allocator.mem_readyPorts {a : Allocator} {now port : Nat} :
    port ∈ readyPorts (a.readyMask now) ↔ ∃ txn, a.headAt? now port = some txn := by
  rw [mem_readyPorts_iff, getD_readyMask, Option.isSome_iff_exists]

/-- The port that a turn would serve, with its visible head. -/
def Allocator.grant? (a : Allocator) (now : Nat) : Option (Nat × Transaction) :=
  (a.arbiter.choose (a.readyMask now)).bind fun port =>
    (a.headAt? now port).map fun head => (port, head)

theorem Allocator.grant?_eq_some_iff {a : Allocator} {now port : Nat} {head : Transaction} :
    a.grant? now = some (port, head) ↔
      a.arbiter.choose (a.readyMask now) = some port ∧ a.headAt? now port = some head := by
  unfold grant?
  constructor
  · intro h
    obtain ⟨q, hchoose, hq⟩ := Option.bind_eq_some_iff.mp h
    obtain ⟨txn, htxn, heq⟩ := Option.map_eq_some_iff.mp hq
    cases heq
    exact ⟨hchoose, htxn⟩
  · rintro ⟨hchoose, hhead⟩
    rw [hchoose, Option.bind_some, hhead]
    rfl

namespace Coalesced

theorem cmd_toBackend (c : Coalesced) (id lineSize : Nat) :
    (c.toBackend id lineSize).cmd = c.cmd := by
  unfold toBackend
  split <;> rfl

theorem id_toBackend (c : Coalesced) (id lineSize : Nat) : (c.toBackend id lineSize).id = id := by
  unfold toBackend
  split <;> rfl

theorem addr_toBackend {c : Coalesced} (id lineSize : Nat) (h : c.cmd ≠ .read) :
    (c.toBackend id lineSize).addr = c.first.txn.addr := by
  unfold toBackend
  rw [if_neg (mt (Command.isCoalescable_iff _).mp h)]

end Coalesced

namespace Outcome

variable {σ α : Type}

/-- What came of a step. -/
def result : Outcome σ α → Except Failure α
  | .ok a _ => .ok a
  | .error e _ => .error e

/-- The assembly that a step leaves behind, whether or not it failed. -/
def left : Outcome σ α → Assembly σ
  | .ok _ m => m
  | .error _ m => m

@[simp] theorem result_ok (a : α) (m : Assembly σ) :
    result (.ok a m : Outcome σ α) = .ok a := rfl

@[simp] theorem result_error (e : Failure) (m : Assembly σ) :
    result (.error e m : Outcome σ α) = .error e := rfl

@[simp] theorem left_ok (a : α) (m : Assembly σ) : left (.ok a m : Outcome σ α) = m := rfl

@[simp] theorem left_error (e : Failure) (m : Assembly σ) :
    left (.error e m : Outcome σ α) = m := rfl

end Outcome

namespace Assembly

variable {σ : Type} [Requestors σ] [Backend σ]

/-! ### The ways in which a head is served -/

/-- A request went out to the memory, which accepted it. -/
structure Sends (m m' : Assembly σ) (now granted : Nat) (sent : BackendRequest)
    (request : Coalesced) : Prop where
  /-- The number of the request was free. -/
  fresh : m.allocator.outstanding.get? m.allocator.nextId = none
  /-- The memory sees the request under the next number. -/
  sent_eq : sent = request.toBackend m.allocator.nextId m.allocator.config.lineSize
  /-- The memory accepted it, and afterwards requestors were told to try again
  or snooped. -/
  accepted : ∃ s notices, Backend.accept now sent m.surroundings =
    .ok ⟨(true, s), notices⟩ ∧
    Notified s m'.surroundings
  /-- The allocator has the request in flight. -/
  allocator : ∃ ports stats locks, m.allocator.locks.lockFor granted now sent = .ok locks ∧
    m'.allocator = { m.allocator with
      ports, stats, locks
      outstanding := m.allocator.outstanding.insert m.allocator.nextId request
      nextId := m.allocator.nextId + 1
      arbiter := m.allocator.arbiter.grant granted
      lastActive := now }
  /-- The heads behind the request left their queues. -/
  queuedOn : ∀ q, m.allocator.queuedOn q =
    Origin.txnsOf q request.origins ++ m'.allocator.queuedOn q
  /-- Other lanes were told of an exclusive access, and then the heads were
  retired. -/
  retired : ∃ s notices t, Backend.accept now sent m.surroundings =
    .ok ⟨(true, s), notices⟩ ∧
    Snooped (sent.cmd.snoop? sent.addr sent.size granted) s t ∧
    Retired now request.ports (m.allocator.ports, t) (m'.allocator.ports, m'.surroundings)
  /-- The request is counted, with the waits of the heads behind it. -/
  counted : m'.allocator.stats.traffic = m.allocator.stats.traffic.recordRequest
    (request.origins.map fun o => m.allocator.waitedAt now o.port) request.folded.length

/-- The heads behind a request joined a load in flight. -/
structure Folds (m m' : Assembly σ) (now granted id : Nat) (request : Coalesced) : Prop where
  /-- The load is the one that the scan chose. -/
  target : m.allocator.foldTarget? request = some id
  /-- The allocator has the load in flight with the new transactions. -/
  allocator : ∃ pending merged ports stats, m.allocator.outstanding.get? id = some pending ∧
    pending.absorb? request = some merged ∧
    m'.allocator = { m.allocator with
      ports, stats
      outstanding := m.allocator.outstanding.insert id merged
      arbiter := m.allocator.arbiter.grant granted
      lastActive := now }
  /-- The heads behind the request left their queues. -/
  queuedOn : ∀ q, m.allocator.queuedOn q =
    Origin.txnsOf q request.origins ++ m'.allocator.queuedOn q
  /-- Requestors were told to try again. -/
  surroundings : Notified m.surroundings m'.surroundings
  /-- The heads were retired. -/
  retired : Retired now request.ports (m.allocator.ports, m.surroundings)
    (m'.allocator.ports, m'.surroundings)
  /-- The heads are counted, with their waits. -/
  counted : m'.allocator.stats.traffic = m.allocator.stats.traffic.recordFold
    (request.origins.map fun o => m.allocator.waitedAt now o.port) request.folded.length

/-- The memory refused a request. -/
structure Refuses (m m' : Assembly σ) (now : Nat) (sent : BackendRequest) (request : Coalesced) :
    Prop where
  /-- The number of the request was free. -/
  fresh : m.allocator.outstanding.get? m.allocator.nextId = none
  /-- The memory sees the request under the next number. -/
  sent_eq : sent = request.toBackend m.allocator.nextId m.allocator.config.lineSize
  /-- The memory refused it, and nothing else happened. -/
  refused : ∃ notices, Backend.accept now sent m.surroundings =
    .ok ⟨(false, m'.surroundings), notices⟩
  /-- The allocator waits for the memory to call back. -/
  allocator : ∃ stats, m'.allocator = { m.allocator with
    backendPort := { m.allocator.backendPort with busy := true }, stats }
  /-- The refusal is counted, and nothing else. -/
  counted : m'.allocator.stats = m.allocator.stats.recordBackendBlocked

/-- A contract was broken over a request: by the memory when it was offered, or
by a lane that was told of it. -/
def Breaks (m : Assembly σ) (now granted : Nat) (sent : BackendRequest) (a : Assertion) : Prop :=
  Backend.accept now sent m.surroundings = .error a ∨
    ∃ s notices, Backend.accept now sent m.surroundings = .ok ⟨(true, s), notices⟩ ∧
      BreaksOver (sent.cmd.snoop? sent.addr sent.size granted) s a

/-- What happens to a request that was formed for a head. -/
inductive Served (m : Assembly σ) (now granted : Nat) (request : Coalesced) :
    Except Failure Turn → Assembly σ → Prop
  /-- A contract was broken on the way. -/
  | broken (a : Assertion) (m' : Assembly σ)
      (h : Breaks m now granted
        (request.toBackend m.allocator.nextId m.allocator.config.lineSize) a) :
      Served m now granted request (.error (.assertion a)) m'
  /-- The number of the request was in use. -/
  | duplicate (m' : Assembly σ) (h : m' = m)
      (hused : m.allocator.outstanding.contains m.allocator.nextId = true) :
      Served m now granted request
        (.error (.invariant (.duplicateRequestId m.allocator.nextId))) m'
  /-- The memory refused the request. -/
  | refused {m' : Assembly σ} {sent : BackendRequest} (h : Refuses m m' now sent request) :
      Served m now granted request (.ok (.refused granted sent)) m'
  /-- The request went out; a load does so only where there is none to join. -/
  | sent {m' : Assembly σ} {sent : BackendRequest} (h : Sends m m' now granted sent request)
      (htarget : m.allocator.config.enableCoalescing = true → request.cmd = .read →
        m.allocator.foldTarget? request = none) :
      Served m now granted request (.ok (.sent granted sent request)) m'
  /-- The request joined a load in flight. -/
  | folded {m' : Assembly σ} {id : Nat} (h : Folds m m' now granted id request)
      (hread : request.cmd = .read) :
      Served m now granted request (.ok (.folded granted id request)) m'

/-! ### Offering -/

omit [Requestors σ] [Backend σ] in
theorem lockAddress_eq_ok {m m' : Assembly σ} {now port : Nat} {sent : BackendRequest}
    (h : m.lockAddress now port sent = .ok m') :
    (∃ locks stats, m.allocator.locks.lockFor port now sent = .ok locks ∧
      m'.allocator = { m.allocator with locks, stats }) ∧ m'.surroundings = m.surroundings := by
  unfold lockAddress at h
  unfold LockTable.lockFor
  split at h
  · rename_i hll
    rw [if_pos hll]
    cases hacq : m.allocator.locks.acquire sent.addr port now with
    | error v => rw [hacq] at h; cases h
    | ok locks => rw [hacq] at h; cases h; exact ⟨⟨locks, _, rfl, rfl⟩, rfl⟩
  · rename_i hll
    rw [if_neg hll]
    cases h
    exact ⟨⟨_, _, rfl, rfl⟩, rfl⟩

omit [Requestors σ] [Backend σ] in
theorem lockAddress_of_lockFor {m : Assembly σ} {now port : Nat} {sent : BackendRequest}
    {locks : LockTable} (h : m.allocator.locks.lockFor port now sent = .ok locks) :
    ∃ m', m.lockAddress now port sent = .ok m' := by
  unfold LockTable.lockFor at h
  unfold lockAddress
  split at h
  · rename_i hll
    rw [if_pos hll, h]
    exact ⟨_, rfl⟩
  · rename_i hll
    rw [if_neg hll]
    exact ⟨_, rfl⟩

/-- Once the memory has accepted a request, which is in flight and known to the
other lanes, its heads are retired. -/
theorem sends_retireHeads {m₀ m : Assembly σ} {now granted : Nat} {request : Coalesced}
    {sent : BackendRequest} {s : σ} {notices : List Notice} {locks : LockTable}
    (hfresh : m₀.allocator.outstanding.get? m₀.allocator.nextId = none)
    (hsent : sent = request.toBackend m₀.allocator.nextId m₀.allocator.config.lineSize)
    (haccept : Backend.accept now sent m₀.surroundings = .ok ⟨(true, s), notices⟩)
    (hlock : m₀.allocator.locks.lockFor granted now sent = .ok locks)
    (hflight : ∃ stats, m.allocator = { m₀.allocator with
      locks, stats
      outstanding := m₀.allocator.outstanding.insert m₀.allocator.nextId request
      nextId := m₀.allocator.nextId + 1 })
    (hcounted : m.allocator.stats.traffic = m₀.allocator.stats.traffic.recordSend)
    (hsnooped : Snooped (sent.cmd.snoop? sent.addr sent.size granted) s m.surroundings)
    (hvisible : ∀ o ∈ request.origins, m₀.allocator.headAt? now o.port = some o.txn)
    (hnodup : request.ports.Nodup) :
    Sends m₀ (((m.retireHeads now request.ports).update fun a =>
      { a with arbiter := a.arbiter.grant granted, lastActive := now }).count
        (.recordSpaceCoalesced request.folded.length)) now granted sent request := by
  obtain ⟨stats, hflight⟩ := hflight
  have hports : m.allocator.ports = m₀.allocator.ports := by rw [hflight]
  -- the bookkeeping leaves the ports alone, so the heads are those seen before
  have hheads : ∀ o ∈ request.origins, m.allocator.headAt? now o.port = some o.txn := by
    intro o ho
    rw [headAt?_congr hports]
    exact hvisible o ho
  obtain ⟨⟨ports, stats', hretire⟩, hnotified⟩ := frame_retireHeads now m request.ports
  have hqueued := queuedOn_retireHeads hheads hnodup
  have hretired := retired_retireHeads hheads hnodup
  have hwaits := congrArg Counters.traffic (stats_retireHeads hheads hnodup)
  rw [Counters.traffic_recordWaits, hcounted, Allocator.waitedAt_congr hports] at hwaits
  rw [hports] at hretired
  refine ⟨hfresh, hsent, ⟨s, notices, haccept, hsnooped.notified.trans hnotified⟩,
    ⟨ports, stats'.recordSpaceCoalesced request.folded.length, locks, hlock, ?_⟩, fun q => ?_,
    ⟨s, notices, m.surroundings, haccept, hsnooped, hretired⟩,
    congrArg (Counters.recordSpaceCoalesced request.folded.length) hwaits⟩
  · rw [allocator_count, allocator_update, hretire, hflight]
    rfl
  · rw [show m₀.allocator.queuedOn q = m.allocator.queuedOn q by rw [hflight]; rfl, hqueued q]
    rfl

/-- What follows an accepted request, if the lock it needs can be had. -/
theorem commit_served {m m₀ : Assembly σ} {now granted : Nat} {request : Coalesced}
    {sent : BackendRequest} {s : σ} {notices : List Notice}
    (hfresh : m₀.allocator.outstanding.get? m₀.allocator.nextId = none)
    (hsent : sent = request.toBackend m₀.allocator.nextId m₀.allocator.config.lineSize)
    (haccept : Backend.accept now sent m₀.surroundings = .ok ⟨(true, s), notices⟩)
    (ha : m.allocator = m₀.allocator) (hs : m.surroundings = s)
    (hlock : ∃ locks, m₀.allocator.locks.lockFor granted now sent = .ok locks)
    (hvisible : ∀ o ∈ request.origins, m₀.allocator.headAt? now o.port = some o.txn)
    (hnodup : request.ports.Nodup) :
    (∃ a m', m.commit now granted request sent = .error (.assertion a) m' ∧
        Breaks m₀ now granted sent a) ∨
      ∃ m', m.commit now granted request sent = .ok (.sent granted sent request) m' ∧
        Sends m₀ m' now granted sent request := by
  obtain ⟨locks, hlock⟩ := hlock
  unfold commit
  simp only
  split
  · -- the lock cannot be refused
    rename_i v herr
    rw [← ha] at hlock
    obtain ⟨m', hok⟩ := lockAddress_of_lockFor (m := (m.update fun a =>
      { a with nextId := a.nextId + 1 }).note (.sent sent.id sent.cmd sent.addr request.size)) hlock
    rw [hok] at herr
    cases herr
  · rename_i m₁ hm₁
    obtain ⟨⟨locks', stats₁, hlock', hm₁a⟩, hm₁s⟩ := lockAddress_eq_ok hm₁
    split
    · rename_i e m₂ hsnoop
      obtain ⟨a, rfl, hbreaks⟩ := broken_broadcast? hsnoop
      rw [hm₁s, surroundings_note, surroundings_update, hs] at hbreaks
      exact Or.inl ⟨a, m₂, rfl, Or.inr ⟨s, notices, haccept, hbreaks⟩⟩
    · rename_i m₂ hsnoop
      obtain ⟨⟨stats₂, hm₂a⟩, hsnooped⟩ := frame_broadcast? hsnoop
      have hcounted := (traffic_broadcast? hsnoop).trans (traffic_lockAddress hm₁)
      rw [hm₁s, surroundings_note, surroundings_update, hs] at hsnooped
      rw [hm₁a] at hm₂a
      rw [allocator_note, allocator_update, ha] at hlock' hm₂a hcounted
      have hid : sent.id = m₀.allocator.nextId := by rw [hsent, Coalesced.id_toBackend]
      refine Or.inr
        ⟨_, rfl, sends_retireHeads hfresh hsent haccept hlock' ⟨stats₂.recordSend, ?_⟩
        (congrArg Counters.recordSend hcounted) hsnooped hvisible hnodup⟩
      rw [hid]
      rw [allocator_count, allocator_update, hm₂a]
      rfl

/-- What an offer does, if the memory is not known to be busy. -/
theorem offer_served {m : Assembly σ} {now granted : Nat} {request : Coalesced}
    (hbusy : m.allocator.backendPort.busy = false)
    (hlock : ∀ sent, sent = request.toBackend m.allocator.nextId m.allocator.config.lineSize →
      ∃ locks, m.allocator.locks.lockFor granted now sent = .ok locks)
    (hvisible : ∀ o ∈ request.origins, m.allocator.headAt? now o.port = some o.txn)
    (hnodup : request.ports.Nodup)
    (htarget : m.allocator.config.enableCoalescing = true → request.cmd = .read →
      m.allocator.foldTarget? request = none) :
    Served m now granted request (m.offer now granted request).result
      (m.offer now granted request).left := by
  unfold offer
  simp only
  split
  · rename_i hused
    exact .duplicate _ rfl hused
  · rename_i hused
    have hfresh : m.allocator.outstanding.get? m.allocator.nextId = none := by
      simpa [AscMap.contains] using hused
    generalize hsent : request.toBackend m.allocator.nextId m.allocator.config.lineSize = sent
    unfold BackendPort.send
    rw [hbusy]
    simp only [Bool.false_eq_true, if_false]
    cases haccept : Backend.accept now sent m.surroundings with
    | error a =>
      refine .broken a _ ?_
      rw [hsent]
      exact Or.inl haccept
    | ok answer =>
      obtain ⟨⟨accepted, s⟩, notices⟩ := answer
      -- the port was free, so the verdict is that of the memory
      cases accepted with
      | false => exact .refused ⟨hfresh, hsent.symm, ⟨notices, haccept⟩, ⟨_, rfl⟩, rfl⟩
      | true =>
        generalize hm : ({ m with
          allocator := { m.allocator with backendPort := m.allocator.backendPort }
          surroundings := s
          journal := m.journal.addAll (notices ++ []) } : Assembly σ) = m₁
        have hm₁a : m₁.allocator = m.allocator := by rw [← hm]
        have hm₁s : m₁.surroundings = s := by rw [← hm]
        have hcommit :=
          commit_served hfresh hsent.symm haccept hm₁a hm₁s (hlock sent hsent.symm)
            hvisible hnodup
        simp only [Except.map, Logged.andThen, if_true, Logged.quiet]
        rw [hm]
        rcases hcommit with ⟨a, m', h, hbreaks⟩ | ⟨m', h, hsends⟩
        · rw [h]
          refine .broken a m' ?_
          rw [hsent]
          exact hbreaks
        · rw [h]
          exact .sent hsends htarget

/-- What serving a load does, where loads may share an access. -/
theorem foldOrOffer_served {m : Assembly σ} {now granted : Nat} {request : Coalesced}
    (hbusy : m.allocator.backendPort.busy = false) (hread : request.cmd = .read)
    (hvisible : ∀ o ∈ request.origins, m.allocator.headAt? now o.port = some o.txn)
    (hnodup : request.ports.Nodup) :
    Served m now granted request (m.foldOrOffer now granted request).result
      (m.foldOrOffer now granted request).left := by
  unfold foldOrOffer
  split
  · rename_i hnone
    -- nothing to join: the request is offered, and a load takes no lock
    rw [Allocator.foldInTime?_eq_none_iff hread] at hnone
    refine offer_served hbusy (fun sent hsent => ?_) hvisible hnodup fun _ _ => hnone
    refine ⟨m.allocator.locks, ?_⟩
    unfold LockTable.lockFor
    rw [hsent, Coalesced.cmd_toBackend, hread, if_neg (by decide)]
  · rename_i id folded a hfold
    obtain ⟨htarget, pending, merged, hpending, hmerged, ha⟩ :=
      Allocator.foldInTime?_eq_some hfold
    simp only
    -- the heads are retired from the state in which the fold has been counted
    generalize hm₁ :
      ((({ m with allocator := a } : Assembly σ).note (.foldedInTime folded id)).count
      (.recordSpaceCoalesced request.folded.length)).count (.recordTimeCoalesced folded) = m₁
    have hm₁a : ∃ stats, m₁.allocator = { m.allocator with
        stats
        outstanding := m.allocator.outstanding.insert id merged } := by
      refine ⟨(m.allocator.stats.recordSpaceCoalesced request.folded.length).recordTimeCoalesced
        folded, ?_⟩
      rw [← hm₁]
      rw [allocator_count, allocator_count, allocator_note, ha]
      rfl
    have hm₁s : m₁.surroundings = m.surroundings := by rw [← hm₁]; rfl
    have hm₁c : m₁.allocator.stats = (m.allocator.stats.recordSpaceCoalesced
        request.folded.length).recordTimeCoalesced (request.folded.length + 1) := by
      rw [← hm₁, Allocator.size_foldInTime? hfold]
      rw [allocator_count, allocator_count, allocator_note, ha]
      rfl
    obtain ⟨stats₁, hm₁a⟩ := hm₁a
    obtain ⟨⟨ports, stats₂, hra⟩, hrn⟩ := frame_retireHeads now m₁ request.ports
    have hvisible₁ : ∀ o ∈ request.origins, m₁.allocator.headAt? now o.port =
        some o.txn := by
      rw [hm₁a]
      exact hvisible
    have hqueued := queuedOn_retireHeads hvisible₁ hnodup
    have hretired := retired_retireHeads hvisible₁ hnodup
    have hwaits := congrArg Counters.traffic (stats_retireHeads hvisible₁ hnodup)
    rw [Counters.traffic_recordWaits, hm₁c,
      Allocator.waitedAt_congr (show m₁.allocator.ports = m.allocator.ports by rw [hm₁a])]
      at hwaits
    rw [hm₁s, show m₁.allocator.ports = m.allocator.ports by rw [hm₁a]] at hretired
    refine .folded
      ⟨htarget, ⟨pending, merged, ports, stats₂, hpending, hmerged, ?_⟩, ?_, ?_,
      hretired, hwaits⟩ hread
    · simp only [Outcome.left, allocator_update]
      rw [hra, hm₁a]
    · intro q
      rw [show m.allocator.queuedOn q = m₁.allocator.queuedOn q by rw [hm₁a]; rfl, hqueued q]
      rfl
    · rw [hm₁s] at hrn
      exact hrn

/-! ### The check of the lock -/

/-- The head of the granted port passed the check of its lock. -/
structure Cleared (m m' : Assembly σ) (now granted : Nat) (head : Transaction) : Prop where
  /-- The turn serves this head. -/
  grant : m.allocator.grant? now = some (granted, head)
  /-- No lock stands in its way, and one that ended on the way is dropped; then
  every parked port may try again. -/
  allocator : ∃ c table ports stats,
    (m.allocator.locks.check head.addr granted now head.cmd).value = (c, table) ∧
    c.isBlocked = false ∧
    ports = (if c = .released then m.allocator.unparkAll.ports else m.allocator.ports) ∧
    m'.allocator = { m.allocator with ports, stats, locks := table }
  /-- A lock that was dropped is counted, and nothing else. -/
  counted : m'.allocator.stats =
    if (m.allocator.locks.check head.addr granted now head.cmd).value.1 = .released then
      m.allocator.stats.recordLocksReleased 1
    else m.allocator.stats
  /-- The queues are as they were. -/
  queuedOn : ∀ q, m'.allocator.queuedOn q = m.allocator.queuedOn q
  /-- A head that was visible is still visible. -/
  headAt? : ∀ q txn, m.allocator.headAt? now q = some txn →
    m'.allocator.headAt? now q = some txn
  /-- Nobody was called. -/
  surroundings : m'.surroundings = m.surroundings

section Cleared

variable {m m' : Assembly σ} {now granted : Nat} {head : Transaction}

omit [Requestors σ] [Backend σ] in
/-- A check that lets a head through touches only ports, locks and counters. -/
theorem Cleared.frame (h : Cleared m m' now granted head) :
    ∃ ports locks stats, locks.timeout = m.allocator.locks.timeout ∧
      m'.allocator = { m.allocator with ports, locks, stats } := by
  obtain ⟨c, table, ports, stats, hcheck, -, -, ha⟩ := h.allocator
  exact ⟨ports, table, stats, LockTable.timeout_of_check hcheck, ha⟩

omit [Requestors σ] [Backend σ] in
theorem Cleared.config_eq (h : Cleared m m' now granted head) :
    m'.allocator.config = m.allocator.config := by
  obtain ⟨ports, locks, stats, -, ha⟩ := h.frame
  rw [ha]

omit [Requestors σ] [Backend σ] in
theorem Cleared.nextId_eq (h : Cleared m m' now granted head) :
    m'.allocator.nextId = m.allocator.nextId := by
  obtain ⟨ports, locks, stats, -, ha⟩ := h.frame
  rw [ha]

omit [Requestors σ] [Backend σ] in
theorem Cleared.outstanding_eq (h : Cleared m m' now granted head) :
    m'.allocator.outstanding = m.allocator.outstanding := by
  obtain ⟨ports, locks, stats, -, ha⟩ := h.frame
  rw [ha]

omit [Requestors σ] [Backend σ] in
theorem Cleared.arbiter_eq (h : Cleared m m' now granted head) :
    m'.allocator.arbiter = m.allocator.arbiter := by
  obtain ⟨ports, locks, stats, -, ha⟩ := h.frame
  rw [ha]

omit [Requestors σ] [Backend σ] in
theorem Cleared.backendPort_eq (h : Cleared m m' now granted head) :
    m'.allocator.backendPort = m.allocator.backendPort := by
  obtain ⟨ports, locks, stats, -, ha⟩ := h.frame
  rw [ha]

end Cleared

/-- The outcomes of a turn. -/
inductive Turned (m : Assembly σ) (now : Nat) : Except Failure Turn → Assembly σ → Prop
  /-- No port had a visible head. -/
  | idle (h : m.allocator.grant? now = none) : Turned m now (.ok .idle) m
  /-- The granted port was parked on the lock of another. -/
  | parked {m' : Assembly σ} {granted owner : Nat} {head : Transaction}
      (hgrant : m.allocator.grant? now = some (granted, head))
      (hcheck : (m.allocator.locks.check head.addr granted now head.cmd).value.1 = .blocked owner)
      (ha : ∃ p stats, m.allocator.ports[granted]? = some p ∧ m'.allocator = { m.allocator with
        ports := m.allocator.ports.set granted { p with locked := true }, stats })
      (hq : ∀ q, m'.allocator.queuedOn q = m.allocator.queuedOn q)
      (hs : m'.surroundings = m.surroundings)
      (hcounted : m'.allocator.stats = m.allocator.stats.recordLockBlock) :
      Turned m now (.ok (.parked granted)) m'
  /-- The head, or one that would share its access, spills past its line. -/
  | spilled {m' : Assembly σ} {granted port : Nat} {head txn : Transaction}
      {v : InvariantViolation} (h : Cleared m m' now granted head)
      (hhead : m.allocator.headAt? now port = some txn)
      (hspill : checkLineFit port txn m.allocator.config.lineSize = .error v)
      (hwhich : port = granted ∧ txn = head ∨ head.cmd = .read) :
      Turned m now (.error (.invariant v)) m'
  /-- The head was served. -/
  | served {m₁ m' : Assembly σ} {granted : Nat} {head : Transaction} {request : Coalesced}
      {result : Except Failure Turn} (h : Cleared m m₁ now granted head)
      (hformed : request.FormedFrom m.allocator now granted head)
      (hserved : Served m₁ now granted request result m') : Turned m now result m'

omit [Requestors σ] [Backend σ] in
theorem queuedOn_releaseLocks (m : Assembly σ) (count q : Nat) :
    (m.releaseLocks count).allocator.queuedOn q = m.allocator.queuedOn q := by
  have hports : (m.releaseLocks count).allocator.ports =
      m.allocator.ports.map fun p => { p with locked := false } := rfl
  unfold Allocator.queuedOn Allocator.queuedIn
  rw [hports, List.getElem?_map, Option.map_map]
  rfl

omit [Requestors σ] [Backend σ] in
theorem cleared_checkLock {m m₀ m' : Assembly σ} {now granted : Nat} {head : Transaction}
    {c : LockCheck} (hgrant : m.allocator.grant? now = some (granted, head))
    (ha : m₀.allocator = m.allocator) (hs : m₀.surroundings = m.surroundings)
    (h : m₀.checkLock now granted head = (c, m')) (hc : c.isBlocked = false) :
    Cleared m m' now granted head := by
  unfold checkLock at h
  simp only [ha] at h
  generalize hchecked : m.allocator.locks.check head.addr granted now head.cmd = checked at h
  obtain ⟨⟨check, table⟩, notices⟩ := checked
  generalize hm₁ : ((m₀.update fun a => { a with locks := table }).noteAll notices) = m₁ at h
  have hm₁a : m₁.allocator = { m.allocator with locks := table } := by
    rw [← hm₁, allocator_noteAll, allocator_update, ha]
  have hm₁s : m₁.surroundings = m.surroundings := by
    rw [← hm₁]
    exact hs
  have hm₁q : ∀ q, m₁.allocator.queuedOn q = m.allocator.queuedOn q := fun q => by
    rw [hm₁a]; rfl
  have hm₁h : ∀ q txn, m.allocator.headAt? now q = some txn →
      m₁.allocator.headAt? now q = some txn := fun q txn hq => by rw [hm₁a]; exact hq
  simp only at h
  split at h
  -- a lock was released: the ports are unparked and the release counted
  · cases h
    refine ⟨hgrant, ⟨.released, table, m.allocator.unparkAll.ports,
      .recordLocksReleased 1 m.allocator.stats, by rw [hchecked], rfl, (if_pos rfl).symm, ?_⟩,
      ?_, ?_, ?_, ?_⟩
    · exact congrArg (fun a : Allocator => ((a.count (.recordLocksReleased 1)).unparkAll)) hm₁a
    · rw [hchecked, if_pos rfl]
      show m₁.allocator.stats.recordLocksReleased 1 = _
      rw [hm₁a]
    · intro q
      rw [queuedOn_releaseLocks, hm₁q]
    · intro q txn hq
      exact headAt?_releaseLocks (hm₁h q txn hq)
    · exact hm₁s
  · rename_i hnot
    cases h
    refine ⟨hgrant, ⟨c, table, _, _, by rw [hchecked], hc, (if_neg hnot).symm, hm₁a⟩,
      ?_, hm₁q, hm₁h, hm₁s⟩
    rw [hchecked, if_neg hnot, hm₁a]

omit [Requestors σ] [Backend σ] in
/-- A check that blocks changes nothing but the counters. -/
theorem checkLock_blocked {m m₀ m' : Assembly σ} {now granted owner : Nat} {head : Transaction}
    (ha : m₀.allocator = m.allocator) (hs : m₀.surroundings = m.surroundings)
    (h : m₀.checkLock now granted head = (.blocked owner, m')) :
    (m.allocator.locks.check head.addr granted now head.cmd).value.1 = .blocked owner ∧
      m'.allocator = m.allocator ∧ m'.surroundings = m.surroundings := by
  unfold checkLock at h
  simp only [ha] at h
  split at h
  · cases h
  · obtain ⟨hb, hm'⟩ := Prod.mk.inj h
    refine ⟨hb, ?_, ?_⟩
    rotate_left
    · rw [← hm']
      exact hs
    rw [← hm']
    -- a blocked access leaves the table as it was
    have hsame : (m.allocator.locks.check head.addr granted now head.cmd).value.2 =
        m.allocator.locks := by
      have hchecked := m.allocator.locks.checked_check head.addr granted now head.cmd
      rw [hb] at hchecked
      generalize (m.allocator.locks.check head.addr granted now head.cmd).value.2 =
        locks at hchecked
      cases hchecked
      rfl
    rw [allocator_noteAll, allocator_update, hsame, ha]

omit [Requestors σ] [Backend σ] in
theorem queuedOn_park (m : Assembly σ) (port q : Nat) :
    (m.park port).allocator.queuedOn q = m.allocator.queuedOn q := by
  unfold park
  split
  · rfl
  · rename_i p hp
    unfold Allocator.queuedOn Allocator.queuedIn
    rw [ports_count, allocator_update]
    unfold Allocator.setPort
    by_cases hq : port = q
    · subst hq
      have hlt := (List.getElem?_eq_some_iff.mp hp).1
      rw [List.getElem?_set_self hlt, hp]
      rfl
    · rw [List.getElem?_set_ne hq]

omit [Requestors σ] [Backend σ] in
theorem frame_park {m : Assembly σ} {port : Nat} {p : RequestorPort}
    (hp : m.allocator.ports[port]? = some p) :
    (∃ stats, (m.park port).allocator = { m.allocator with
        ports := m.allocator.ports.set port { p with locked := true }, stats }) ∧
      (m.park port).surroundings = m.surroundings := by
  unfold park
  rw [hp]
  exact ⟨⟨_, rfl⟩, rfl⟩

omit [Requestors σ] [Backend σ] in
theorem stats_park (m : Assembly σ) (port : Nat) :
    (m.park port).allocator.stats = m.allocator.stats.recordLockBlock := by
  unfold park
  split <;> rfl

omit [Requestors σ] [Backend σ] in
theorem Cleared.note {m m' : Assembly σ} {now granted : Nat} {head : Transaction}
    (h : Cleared m m' now granted head) (n : Notice) : Cleared m (m'.note n) now granted head :=
  ⟨h.grant, h.allocator, h.counted, h.queuedOn, h.headAt?, h.surroundings⟩

/-! ### The whole turn -/

/-- What serving a head does, once it has passed the check of its lock. -/
theorem turned_serve {m m₁ : Assembly σ} {now granted : Nat} {head : Transaction}
    (hcleared : Cleared m m₁ now granted head) (hbusy : m.allocator.backendPort.busy = false)
    (hhead : m.allocator.headAt? now granted = some head) :
    Turned m now (m₁.serve now granted (m.allocator.readyMask now) head).result
      (m₁.serve now granted (m.allocator.readyMask now) head).left := by
  obtain ⟨c, table, ports, stats, hcheck, hc, -, ha⟩ := hcleared.allocator
  have hconfig := hcleared.config_eq
  have hbusy₁ : m₁.allocator.backendPort.busy = false :=
    (congrArg BackendPort.busy hcleared.backendPort_eq).trans hbusy
  -- the lock that a request formed for the head needs can be had
  have hlock : ∀ request : Coalesced, request.FormedFrom m.allocator now granted head →
      ∀ sent, sent = request.toBackend m₁.allocator.nextId m₁.allocator.config.lineSize →
      ∃ locks, m₁.allocator.locks.lockFor granted now sent = .ok locks := by
    intro request hformed sent hsent
    rw [ha]
    refine LockTable.lockFor_of_check hcheck hc ?_ ?_
    · rw [hsent, Coalesced.cmd_toBackend, hformed.cmd_eq]
    · intro hll
      rw [hsent, Coalesced.addr_toBackend, hformed.first]
      rw [hformed.cmd_eq, hll]
      decide
  have hvisible : ∀ request : Coalesced, request.FormedFrom m.allocator now granted head →
      ∀ o ∈ request.origins, m₁.allocator.headAt? now o.port = some o.txn :=
    fun request hformed o ho => hcleared.headAt? _ _ (hformed.visible o ho)
  unfold serve
  simp only [hconfig]
  split
  · rename_i v hv
    exact .spilled hcleared hhead hv (Or.inl ⟨rfl, rfl⟩)
  · rename_i hfit
    have hone := Allocator.formedFrom_ofTransaction hhead hfit
    split
    · rename_i hon
      rw [Bool.and_eq_true, Command.isCoalescable_iff] at hon
      -- the ready ports show the heads that they showed before the check
      have hheads : ∀ port ∈ Allocator.readyPorts (m.allocator.readyMask now),
          m₁.allocator.headAt? now port = m.allocator.headAt? now port := by
        intro port hport
        obtain ⟨txn, htxn⟩ := Allocator.mem_readyPorts.mp hport
        rw [htxn]
        exact hcleared.headAt? port txn htxn
      rw [Allocator.gather_congr hconfig hheads]
      split
      · rename_i v hv
        obtain ⟨port, txn, htxn, hspill⟩ := Allocator.spilled_gather hv
        exact .spilled hcleared htxn hspill (Or.inr hon.2)
      · rename_i request hrequest
        have hformed := Allocator.formedFrom_gather hon.1 (Allocator.nodup_readyPorts _)
          (fun port _ hmem => by
            rw [Allocator.ports_ofTransaction] at hmem
            exact List.mem_singleton.mp hmem) hone hrequest
        have hread : request.cmd = .read := by rw [hformed.cmd_eq, hon.2]
        split
        · exact .served (hcleared.note _) hformed
            (foldOrOffer_served hbusy₁ hread (hvisible _ hformed) hformed.nodup)
        · exact .served hcleared hformed
            (foldOrOffer_served hbusy₁ hread (hvisible _ hformed) hformed.nodup)
    · rename_i hoff
      refine .served hcleared hone
        (offer_served hbusy₁ (hlock _ hone) (hvisible _ hone) hone.nodup ?_)
      intro hon hread
      rw [hconfig] at hon
      rw [hone.cmd_eq] at hread
      rw [hon, hread] at hoff
      exact absurd rfl hoff

/-- **A turn does one of the things that `Turned` lists.** -/
theorem turned_issueTurn {m : Assembly σ} {now : Nat}
    (hbusy : m.allocator.backendPort.busy = false) :
    Turned m now (m.issueTurn now).result (m.issueTurn now).left := by
  unfold issueTurn
  simp only
  split
  · rename_i hnone
    refine .idle ?_
    unfold Allocator.grant?
    rw [hnone]
    rfl
  · rename_i granted hchoose
    split
    · rename_i hnone
      refine .idle ?_
      unfold Allocator.grant?
      rw [hchoose, Option.bind_some, hnone]
      rfl
    · rename_i head hhead
      have hgrant := Allocator.grant?_eq_some_iff.mpr ⟨hchoose, hhead⟩
      split
      -- the lock of another port parks the granted one
      · rename_i owner m₁ hcheck
        obtain ⟨hb, ha, hs⟩ :=
          checkLock_blocked (allocator_note m _) (surroundings_note m _) hcheck
        obtain ⟨p, hp, -⟩ := Option.bind_eq_some_iff.mp hhead
        obtain ⟨⟨stats, hpa⟩, hps⟩ := frame_park (m := m₁) (by rw [ha]; exact hp)
        refine .parked hgrant hb ⟨p, stats, hp, ?_⟩ ?_ (hps.trans hs) ?_
        · rw [ha] at hpa
          exact hpa
        · intro q
          rw [Outcome.left_ok, queuedOn_park, ha]
        · rw [Outcome.left_ok, stats_park, ha]
      · rename_i c m₁ hb hcheck
        have hcleared :=
          cleared_checkLock hgrant (allocator_note m _) (surroundings_note m _) hcheck
          (LockCheck.isBlocked_eq_false hb)
        exact turned_serve hcleared hbusy hhead

theorem turned_of_issueTurn {m m' : Assembly σ} {now : Nat} {turn : Turn}
    (hbusy : m.allocator.backendPort.busy = false) (h : m.issueTurn now = .ok turn m') :
    Turned m now (.ok turn) m' := by
  have hturned : Turned m now _ _ := turned_issueTurn hbusy
  rw [h] at hturned
  exact hturned

end Assembly
end MemPort
