import MemPort.Allocator.Assembly

/-!
# Issuing requests

In every cycle the allocator takes turns until the memory refuses a request, the
budget of the cycle is spent, or no port has a visible head.  A turn grants one
port and then either parks it on a lock, folds its head into a request in
flight, or offers a request to the memory.

## Main definitions

* `Turn` — how a turn ends.
* `Assembly.issueTurn` — one turn.
* `Assembly.issue` — the turns of a cycle, after the sweep of expired locks.

## Main results

* `issueTurn_eq_ok`, `serve_eq_ok`, `offer_eq_ok`, `commit_eq_ok` — what has
  happened where a part of a turn goes through.
* `drained_or_parked_issueTurn` — a turn after which the loop goes on took
  transactions from their queues, or parked its port.
* `descends_issueTurn` — such a turn leaves less to do: fewer queued
  transactions, or as many and fewer unparked ports.
* `weight_issueTurn_lt` — so it weighs less.  This is why `issue` ends.

## References

`SPEC_FULL.md`, section 4.4: the issue path; section 10.6, items 3, 5 and 7:
waits, the sweep of locks and the guard of stores.
-/

namespace MemPort

/-- How a turn of the issue loop ends. -/
inductive Turn where
  /-- No port had a visible head. -/
  | idle
  /-- The granted port was parked on a lock. -/
  | parked (port : Nat)
  /-- The granted port's head joined a request in flight, with all that was
  gathered for it. -/
  | folded (port : Nat) (id : Nat) (request : Coalesced)
  /-- A request went out for the granted port. -/
  | sent (port : Nat) (sent : BackendRequest) (request : Coalesced)
  /-- The memory refused the request of the granted port. -/
  | refused (port : Nat) (sent : BackendRequest)
  deriving DecidableEq, Repr

namespace Turn

/-- Whether another turn may follow. -/
def goesOn : Turn → Bool
  | parked _ | folded .. | sent .. => true
  | idle | refused .. => false

/-- How much of the budget a turn spends: only a request that went out counts. -/
def cost : Turn → Nat
  | sent .. => 1
  | _ => 0

end Turn

/-! ### What a turn decides -/

namespace Allocator

/-- Fold the visible heads of other ready ports that can share the access into a
request, in port order.  A head that could join but spills past its line is a
violation. -/
def gather (a : Allocator) (now granted : Nat) :
    List Nat → Coalesced → Except InvariantViolation Coalesced
  | [], request => .ok request
  | port :: rest, request =>
      match if port = granted then none else a.headAt? now port with
      | none => a.gather now granted rest request
      | some txn =>
          if request.canJoin txn a.config.lineSize then
            match checkLineFit port txn a.config.lineSize with
            | .error v => .error v
            | .ok () => a.gather now granted rest (request.add ⟨port, txn⟩)
          else a.gather now granted rest request

/-- The ports whose mask bit is set, in order. -/
def readyPorts (ready : List Bool) : List Nat :=
  (List.range ready.length).filter fun port => ready.getD port false

/-- The oldest load of the same line in flight with no exclusive access to that
line behind it. -/
def foldTarget? (a : Allocator) (request : Coalesced) : Option Nat :=
  a.outstanding.entries.foldl
    (fun target entry =>
      if entry.2.line != request.line then target
      else if entry.2.cmd.isExclusive then none
      else if target.isNone && entry.2.cmd == request.cmd then some entry.1
      else target)
    none

/-- Fold a request into one in flight.  The result has the number of
transactions that joined. -/
def foldInTime? (a : Allocator) (request : Coalesced) : Option (Nat × Nat × Allocator) := do
  let id ← a.foldTarget? request
  let pending ← a.outstanding.get? id
  let merged ← pending.absorb? request
  return (id, request.size, { a with outstanding := a.outstanding.insert id merged })

end Allocator

namespace Assembly

variable {σ : Type}

/-! ### Locks -/

/-- Park a port on a lock. -/
def park (m : Assembly σ) (port : Nat) : Assembly σ :=
  let m := match m.allocator.ports[port]? with
    | none => m
    | some p => m.update (·.setPort port { p with locked := true })
  m.count .recordLockBlock

/-- Locks were dropped: count them and let every parked port try again. -/
def releaseLocks (m : Assembly σ) (count : Nat) : Assembly σ :=
  (m.count (.recordLocksReleased count)).update (·.unparkAll)

/-- Check the head of a port against the locks. -/
def checkLock (m : Assembly σ) (now port : Nat) (head : Transaction) : LockCheck × Assembly σ :=
  let checked := m.allocator.locks.check head.addr port now head.cmd
  let m := (m.update fun a => { a with locks := checked.value.2 }).noteAll checked.notices
  match checked.value.1 with
  | .released => (.released, m.releaseLocks 1)
  | check => (check, m)

/-- Drop the locks that have run out of time. -/
def sweepLocks (m : Assembly σ) (now : Nat) : Assembly σ :=
  let swept := m.allocator.locks.expire now
  let m := m.update fun a => { a with locks := swept.2 }
  if 0 < swept.1 then (m.note (.locksExpired swept.1)).releaseLocks swept.1 else m

/-- A sweep drops the locks that have run out of time.  If there are any, they
are counted, and every parked port may try again. -/
theorem sweepLocks_cases (m : Assembly σ) (now : Nat) :
    (m.sweepLocks now).surroundings = m.surroundings ∧
      ((m.sweepLocks now).allocator = { m.allocator.unparkAll with
          locks := (m.allocator.locks.expire now).2
          stats := m.allocator.stats.recordLocksReleased (m.allocator.locks.expire now).1 } ∨
        (m.allocator.locks.expire now).1 = 0 ∧ (m.sweepLocks now).allocator =
          { m.allocator with locks := (m.allocator.locks.expire now).2 }) := by
  unfold sweepLocks
  simp only
  split
  · exact ⟨rfl, Or.inl rfl⟩
  · rename_i hnone
    exact ⟨rfl, Or.inr ⟨Nat.eq_zero_of_not_pos hnone, rfl⟩⟩

/-! ### Offering a request -/

section Sending

variable [Requestors σ] [Backend σ]

/-- Lock the address of a load-locked that went out. -/
def lockAddress (m : Assembly σ) (now port : Nat) (sent : BackendRequest) :
    Except InvariantViolation (Assembly σ) :=
  if sent.cmd = .loadLocked then
    (m.allocator.locks.acquire sent.addr port now).map fun locks =>
      (m.update fun a => { a with locks }).count .recordLockAcquired
  else .ok m

/-- What follows when the memory accepted a request: its number is used up, a
load-locked locks its address, other lanes are told of an exclusive access, and
the heads behind it are retired. -/
def commit (m : Assembly σ) (now granted : Nat) (request : Coalesced) (sent : BackendRequest) :
    Outcome σ Turn :=
  let m := (m.update fun a => { a with nextId := a.nextId + 1 }).note
    (.sent sent.id sent.cmd sent.addr request.size)
  match m.lockAddress now granted sent with
  | .error v => .error (.invariant v) m
  | .ok m =>
      match m.broadcast? (sent.cmd.snoop? sent.addr sent.size granted) with
      | .error e m => .error e m
      | .ok () m =>
          let m := (m.update fun a =>
            { a with outstanding := a.outstanding.insert sent.id request }).count .recordSend
          let m := m.retireHeads now request.ports
          let m := (m.update fun a =>
            { a with arbiter := a.arbiter.grant granted, lastActive := now }).count
              (.recordSpaceCoalesced request.folded.length)
          .ok (.sent granted sent request) m

/-- Offer a request to the memory.  A refusal consumes nothing. -/
def offer (m : Assembly σ) (now granted : Nat) (request : Coalesced) : Outcome σ Turn :=
  let id := m.allocator.nextId
  if m.allocator.outstanding.contains id then .error (.invariant (.duplicateRequestId id)) m
  else
    let sent := request.toBackend id m.allocator.config.lineSize
    match m.allocator.backendPort.send now sent m.surroundings with
    | .error a => .error (.assertion a) m
    | .ok answer =>
        let m : Assembly σ :=
          { m with
            allocator := { m.allocator with backendPort := answer.value.2.1 }
            surroundings := answer.value.2.2
            journal := m.journal.addAll answer.notices }
        if answer.value.1 then m.commit now granted request sent
        else .ok (.refused granted sent) (m.count .recordBackendBlocked)

/-- Fold a request into one in flight, and retire the heads behind it. -/
def foldOrOffer (m : Assembly σ) (now granted : Nat) (request : Coalesced) : Outcome σ Turn :=
  match m.allocator.foldInTime? request with
  | none => m.offer now granted request
  | some (id, folded, a) =>
      let m := ({ m with allocator := a } : Assembly σ).note (.foldedInTime folded id)
      let m := (m.count (.recordSpaceCoalesced request.folded.length)).count
        (.recordTimeCoalesced folded)
      let m := m.retireHeads now request.ports
      .ok (.folded granted id request) (m.update fun a =>
        { a with arbiter := a.arbiter.grant granted, lastActive := now })

/-- Serve the head of the granted port: alone, or with all that can share its
access. -/
def serve (m : Assembly σ) (now granted : Nat) (ready : List Bool) (head : Transaction) :
    Outcome σ Turn :=
  let config := m.allocator.config
  match checkLineFit granted head config.lineSize with
  | .error v => .error (.invariant v) m
  | .ok () =>
      let request := Coalesced.ofTransaction granted head config.lineSize
      if config.enableCoalescing && head.cmd.isCoalescable then
        match m.allocator.gather now granted (Allocator.readyPorts ready) request with
        | .error v => .error (.invariant v) m
        | .ok request =>
            let folded := request.folded.length
            let m := if 0 < folded then m.note (.foldedInSpace folded request.line) else m
            m.foldOrOffer now granted request
      else m.offer now granted request

/-- One turn of the issue loop. -/
def issueTurn (m : Assembly σ) (now : Nat) : Outcome σ Turn :=
  let ready := m.allocator.readyMask now
  match m.allocator.arbiter.choose ready with
  | none => .ok .idle m
  | some granted =>
      match m.allocator.headAt? now granted with
      | none => .ok .idle m
      | some head =>
          let m := m.note (.granted ready granted head.cmd head.addr)
          match m.checkLock now granted head with
          | (.blocked _, m) => .ok (.parked granted) (m.park granted)
          | (_, m) => m.serve now granted ready head

/-! ### What a turn that goes through has done -/

omit [Backend σ] in
/-- A request that went out got the lock that it needed, the other lanes took
the news of it, and its heads were retired. -/
theorem commit_eq_ok {m m' : Assembly σ} {now granted : Nat} {request : Coalesced}
    {sent : BackendRequest} {turn : Turn} (h : m.commit now granted request sent = .ok turn m') :
    turn = .sent granted sent request ∧ ∃ m₁ m₂ : Assembly σ,
      ((m.update fun a => { a with nextId := a.nextId + 1 }).note
        (.sent sent.id sent.cmd sent.addr request.size)).lockAddress now granted sent = .ok m₁ ∧
      m₁.broadcast? (sent.cmd.snoop? sent.addr sent.size granted) = .ok () m₂ ∧
      m' = ((((m₂.update fun a =>
          { a with outstanding := a.outstanding.insert sent.id request }).count
            .recordSend).retireHeads
            now request.ports).update fun a =>
              { a with arbiter := a.arbiter.grant granted, lastActive := now }).count
                (.recordSpaceCoalesced request.folded.length) := by
  unfold commit at h
  simp only at h
  split at h
  · cases h
  · rename_i m₁ hlock
    split at h
    · cases h
    · rename_i m₂ hsnooped
      cases h
      exact ⟨rfl, m₁, m₂, hlock, hsnooped, rfl⟩

/-- An offer that goes through is heard by the memory, and accepted or refused. -/
theorem offer_eq_ok {m m' : Assembly σ} {now granted : Nat} {request : Coalesced} {turn : Turn}
    (h : m.offer now granted request = .ok turn m') :
    ∃ (sent : BackendRequest) (answer : Logged (Bool × BackendPort × σ)) (m₁ : Assembly σ),
      sent = request.toBackend m.allocator.nextId m.allocator.config.lineSize ∧
      m.allocator.backendPort.send now sent m.surroundings = .ok answer ∧
      m₁ = { m with
        allocator := { m.allocator with backendPort := answer.value.2.1 }
        surroundings := answer.value.2.2
        journal := m.journal.addAll answer.notices } ∧
      (answer.value.1 = true ∧ m₁.commit now granted request sent = .ok turn m' ∨
        answer.value.1 = false ∧ turn = .refused granted sent ∧
          m' = m₁.count .recordBackendBlocked) := by
  unfold offer at h
  simp only at h
  split at h
  · cases h
  · split at h
    · cases h
    · rename_i answer hanswer
      refine ⟨_, answer, _, rfl, hanswer, rfl, ?_⟩
      split at h
      · rename_i haccepted
        exact Or.inl ⟨haccepted, h⟩
      · rename_i hrefused
        cases h
        exact Or.inr ⟨Bool.not_eq_true _ ▸ hrefused, rfl, rfl⟩

/-- A request joins one in flight, or is offered to the memory. -/
theorem foldOrOffer_eq_ok {m m' : Assembly σ} {now granted : Nat} {request : Coalesced}
    {turn : Turn} (h : m.foldOrOffer now granted request = .ok turn m') :
    (∃ (id folded : Nat) (a : Allocator), m.allocator.foldInTime? request =
      some (id, folded, a) ∧
      turn = .folded granted id request ∧
      m' = ((((({ m with allocator := a } : Assembly σ).note (.foldedInTime folded id)).count
        (.recordSpaceCoalesced request.folded.length)).count
          (.recordTimeCoalesced folded)).retireHeads
          now request.ports).update fun a =>
            { a with arbiter := a.arbiter.grant granted, lastActive := now }) ∨
      m.offer now granted request = .ok turn m' := by
  unfold foldOrOffer at h
  split at h
  · exact Or.inr h
  · rename_i id folded a hfold
    cases h
    exact Or.inl ⟨id, folded, a, hfold, rfl, rfl⟩

/-- A head is served with all that is gathered for it, or alone. -/
theorem serve_eq_ok {m m' : Assembly σ} {now granted : Nat} {ready : List Bool}
    {head : Transaction} {turn : Turn} (h : m.serve now granted ready head = .ok turn m') :
    ((m.allocator.config.enableCoalescing && head.cmd.isCoalescable) = true ∧
      ∃ (request : Coalesced) (m₁ : Assembly σ),
        m.allocator.gather now granted (Allocator.readyPorts ready)
          (.ofTransaction granted head m.allocator.config.lineSize) = .ok request ∧
        m₁.allocator = m.allocator ∧ m₁.surroundings = m.surroundings ∧
        m₁.foldOrOffer now granted request = .ok turn m') ∨
      (m.allocator.config.enableCoalescing && head.cmd.isCoalescable) ≠ true ∧
        m.offer now granted (.ofTransaction granted head m.allocator.config.lineSize) =
          .ok turn m' := by
  unfold serve at h
  simp only at h
  split at h
  · cases h
  · split at h
    · rename_i hon
      split at h
      · cases h
      · rename_i request hgather
        refine Or.inl ⟨hon, request, _, hgather, ?_, ?_, h⟩
        · split <;> rfl
        · split <;> rfl
    · rename_i hoff
      exact Or.inr ⟨hoff, h⟩

/-- A turn without a visible head is idle; else the head of the granted port is
parked on a lock or served. -/
theorem issueTurn_eq_ok {m m' : Assembly σ} {now : Nat} {turn : Turn}
    (h : m.issueTurn now = .ok turn m') :
    turn = .idle ∧ m' = m ∨ ∃ (granted : Nat) (head : Transaction) (m₁ : Assembly σ),
      m.allocator.arbiter.choose (m.allocator.readyMask now) = some granted ∧
      m.allocator.headAt? now granted = some head ∧
      ((∃ owner,
        (m.note (.granted (m.allocator.readyMask now) granted head.cmd head.addr)).checkLock
          now granted head = (.blocked owner, m₁) ∧
          turn = .parked granted ∧ m' = m₁.park granted) ∨
        ∃ c, (∀ owner, c ≠ .blocked owner) ∧
          (m.note (.granted (m.allocator.readyMask now) granted head.cmd head.addr)).checkLock
            now granted head = (c, m₁) ∧
          m₁.serve now granted (m.allocator.readyMask now) head = .ok turn m') := by
  unfold issueTurn at h
  simp only at h
  split at h
  · cases h
    exact Or.inl ⟨rfl, rfl⟩
  · rename_i granted hchoose
    split at h
    · cases h
      exact Or.inl ⟨rfl, rfl⟩
    · rename_i head hhead
      split at h
      · rename_i owner m₁ hcheck
        cases h
        exact Or.inr ⟨granted, head, m₁, hchoose, hhead, Or.inl ⟨owner, hcheck, rfl, rfl⟩⟩
      · rename_i c m₁ hfree hcheck
        exact Or.inr ⟨granted, head, m₁, hchoose, hhead, Or.inr ⟨c, hfree, hcheck, h⟩⟩

end Sending

/-! ### A turn leaves less to do -/

/-- What a step must leave for the loop to end: the same ports, with fewer
queued transactions, or with as many of them and fewer unparked ports. -/
def Descends (before after : Assembly σ) : Prop :=
  after.allocator.ports.length = before.allocator.ports.length ∧
    (after.allocator.waiting < before.allocator.waiting ∨
      after.allocator.waiting = before.allocator.waiting ∧
        after.allocator.unparked < before.allocator.unparked)

/-- A step that took transactions from their queues, whatever happened to the
parked ports. -/
def Drained (before after : Assembly σ) : Prop :=
  after.allocator.waiting < before.allocator.waiting ∧
    after.allocator.ports.length = before.allocator.ports.length

theorem Drained.descends {m m' : Assembly σ} (h : Drained m m') : Descends m m' :=
  ⟨h.2, Or.inl h.1⟩

theorem unparked_le (a : Allocator) : a.unparked ≤ a.ports.length := List.countP_le_length

/-- A descent is one of the weight, because there are never more unparked ports
than ports. -/
theorem Descends.weight_lt {m m' : Assembly σ} (h : Descends m m') :
    m'.allocator.weight < m.allocator.weight := by
  obtain ⟨hlen, hlt | ⟨heq, hlt⟩⟩ := h
  · have hle := unparked_le m'.allocator
    unfold Allocator.weight
    rw [hlen] at hle ⊢
    have : (m'.allocator.waiting + 1) * (m.allocator.ports.length + 1) ≤
        m.allocator.waiting * (m.allocator.ports.length + 1) := Nat.mul_le_mul_right _ hlt
    rw [Nat.add_mul, Nat.one_mul] at this
    omega
  · unfold Allocator.weight
    rw [hlen, heq]
    omega

/-- Steps before a drain that keep what the ports hold do not disturb it. -/
theorem Drained.of_ports {m m₁ m₂ m' : Assembly σ} (h : Drained m₁ m₂)
    (h₁ : m₁.allocator.waiting = m.allocator.waiting ∧
      m₁.allocator.ports.length = m.allocator.ports.length)
    (h₂ : m'.allocator.ports = m₂.allocator.ports) : Drained m m' := by
  unfold Drained Allocator.waiting at *
  rw [h₂]
  exact ⟨h₁.1 ▸ h.1, h.2.trans h₁.2⟩

section Sending

variable [Requestors σ] [Backend σ]

omit [Backend σ] in
theorem retireHeads_drained {m : Assembly σ} {now : Nat} {request : Coalesced}
    (h : (m.allocator.headAt? now request.first.port).isSome = true) :
    Drained m (m.retireHeads now request.ports) :=
  ⟨waiting_retireHeads_lt h, length_ports_retireHeads _ _ _⟩

omit [Requestors σ] [Backend σ] in
theorem ports_lockAddress {m m' : Assembly σ} {now port : Nat} {sent : BackendRequest}
    (h : m.lockAddress now port sent = .ok m') : m'.allocator.ports = m.allocator.ports := by
  unfold lockAddress at h
  split at h
  · cases hacq : m.allocator.locks.acquire sent.addr port now with
    | error v => rw [hacq] at h; cases h
    | ok locks => rw [hacq] at h; cases h; rfl
  · cases h; rfl

/-- The visible head of a port depends on the ports alone. -/
theorem headAt?_congr {a b : Allocator} (h : a.ports = b.ports) (now port : Nat) :
    a.headAt? now port = b.headAt? now port := by
  unfold Allocator.headAt?
  rw [h]

omit [Backend σ] in
/-- Heads are retired after steps that leave the ports alone. -/
theorem retireHeads_drained_of_ports {m m₁ : Assembly σ} {now : Nat} {request : Coalesced}
    (hports : m₁.allocator.ports = m.allocator.ports)
    (hhead : (m.allocator.headAt? now request.first.port).isSome = true) :
    Drained m (m₁.retireHeads now request.ports) := by
  rw [← headAt?_congr hports] at hhead
  refine (retireHeads_drained hhead).of_ports ⟨?_, ?_⟩ rfl
  · unfold Allocator.waiting
    rw [hports]
  · rw [hports]

omit [Backend σ] in
theorem commit_drained {m m' : Assembly σ} {now granted : Nat} {request : Coalesced}
    {sent : BackendRequest} {turn : Turn} (h : m.commit now granted request sent = .ok turn m')
    (hhead : (m.allocator.headAt? now request.first.port).isSome = true) : Drained m m' := by
  obtain ⟨-, m₁, m₂, hlock, hsnooped, rfl⟩ := commit_eq_ok h
  have hports : m₂.allocator.ports = m.allocator.ports := by
    rw [ports_broadcast? hsnooped, ports_lockAddress hlock]
    rfl
  refine (retireHeads_drained_of_ports ?_ hhead).of_ports ⟨rfl, rfl⟩ rfl
  exact hports

theorem offer_drained {m m' : Assembly σ} {now granted : Nat} {request : Coalesced} {turn : Turn}
    (h : m.offer now granted request = .ok turn m') (hturn : turn.goesOn = true)
    (hhead : (m.allocator.headAt? now request.first.port).isSome = true) : Drained m m' := by
  obtain ⟨sent, answer, m₁, -, -, rfl, ⟨-, hcommit⟩ | ⟨-, rfl, -⟩⟩ := offer_eq_ok h
  · exact (commit_drained hcommit hhead).of_ports ⟨rfl, rfl⟩ rfl
  · cases hturn

theorem ports_foldInTime? {a a' : Allocator} {request : Coalesced} {id folded : Nat}
    (h : a.foldInTime? request = some (id, folded, a')) : a'.ports = a.ports := by
  unfold Allocator.foldInTime? at h
  simp only [Option.bind_eq_bind, Option.bind_eq_some_iff, Option.pure_def] at h
  obtain ⟨_, _, _, _, _, _, h⟩ := h
  cases h
  rfl

theorem foldOrOffer_drained {m m' : Assembly σ} {now granted : Nat} {request : Coalesced}
    {turn : Turn} (h : m.foldOrOffer now granted request = .ok turn m')
    (hturn : turn.goesOn = true)
    (hhead : (m.allocator.headAt? now request.first.port).isSome = true) : Drained m m' := by
  rcases foldOrOffer_eq_ok h with ⟨id, folded, a, hfold, -, rfl⟩ | hoffer
  · have hports := ports_foldInTime? hfold
    refine (retireHeads_drained_of_ports ?_ hhead).of_ports ⟨rfl, rfl⟩ rfl
    exact hports
  · exact offer_drained hoffer hturn hhead

theorem first_gather {a : Allocator} {now granted : Nat} {ports : List Nat}
    {request request' : Coalesced} (h : a.gather now granted ports request = .ok request') :
    request'.first = request.first := by
  induction ports generalizing request with
  | nil => cases h; rfl
  | cons port rest ih =>
    unfold Allocator.gather at h
    split at h
    · exact ih h
    · split at h
      · split at h
        · cases h
        · exact (ih h).trans rfl
      · exact ih h

theorem serve_drained {m m' : Assembly σ} {now granted : Nat} {ready : List Bool}
    {head : Transaction} {turn : Turn} (h : m.serve now granted ready head = .ok turn m')
    (hturn : turn.goesOn = true)
    (hhead : (m.allocator.headAt? now granted).isSome = true) : Drained m m' := by
  rcases serve_eq_ok h with ⟨-, request, m₁, hgather, ha, -, hserved⟩ | ⟨-, hoffer⟩
  · have hhead' : (m₁.allocator.headAt? now request.first.port).isSome = true := by
      rw [ha, first_gather hgather]
      exact hhead
    exact (foldOrOffer_drained hserved hturn hhead').of_ports (by rw [ha]; exact ⟨rfl, rfl⟩) rfl
  · exact offer_drained hoffer hturn hhead

omit [Requestors σ] [Backend σ] in
theorem headAt?_releaseLocks {m : Assembly σ} {count now q : Nat} {txn : Transaction}
    (h : m.allocator.headAt? now q = some txn) :
    (m.releaseLocks count).allocator.headAt? now q = some txn := by
  have hports : (m.releaseLocks count).allocator.ports =
      m.allocator.ports.map fun p => { p with locked := false } := rfl
  obtain ⟨p, hp, hhead⟩ := Allocator.headAt?_eq_some_iff.mp h
  refine Allocator.headAt?_eq_some_iff.mpr ⟨{ p with locked := false }, ?_, ?_⟩
  · rw [hports, List.getElem?_map, hp]
    rfl
  · exact RequestorPort.head?_eq_some_iff.mpr
      ⟨rfl, (RequestorPort.head?_eq_some_iff.mp hhead).2⟩

omit [Requestors σ] [Backend σ] in
/-- Unparking the ports keeps what they hold, and hides no head. -/
theorem releaseLocks_keeps (m : Assembly σ) (count : Nat) :
    (m.releaseLocks count).allocator.waiting = m.allocator.waiting ∧
      (m.releaseLocks count).allocator.ports.length = m.allocator.ports.length ∧
      ∀ now port, (m.allocator.headAt? now port).isSome = true →
        ((m.releaseLocks count).allocator.headAt? now port).isSome = true := by
  have hports : (m.releaseLocks count).allocator.ports =
      m.allocator.ports.map fun p => { p with locked := false } := rfl
  refine ⟨?_, ?_, ?_⟩
  · unfold Allocator.waiting
    rw [hports, List.map_map]
    rfl
  · rw [hports, List.length_map]
  · intro now port h
    obtain ⟨txn, htxn⟩ := Option.isSome_iff_exists.mp h
    rw [headAt?_releaseLocks htxn]
    rfl

omit [Requestors σ] [Backend σ] in
theorem checkLock_keeps (m : Assembly σ) (now port : Nat) (head : Transaction) :
    (m.checkLock now port head).2.allocator.waiting = m.allocator.waiting ∧
      (m.checkLock now port head).2.allocator.ports.length = m.allocator.ports.length ∧
      ∀ now' port', (m.allocator.headAt? now' port').isSome = true →
        ((m.checkLock now port head).2.allocator.headAt? now' port').isSome = true := by
  unfold checkLock
  simp only
  split
  · exact releaseLocks_keeps _ 1
  · exact ⟨rfl, rfl, fun _ _ h => h⟩

omit [Requestors σ] [Backend σ] in
/-- A blocked check leaves the ports alone. -/
theorem ports_checkLock_blocked {m m' : Assembly σ} {now port owner : Nat} {head : Transaction}
    (h : m.checkLock now port head = (.blocked owner, m')) :
    m'.allocator.ports = m.allocator.ports := by
  unfold checkLock at h
  simp only at h
  split at h
  · cases h
  · rw [← (Prod.mk.inj h).2]
    rfl

omit [Requestors σ] [Backend σ] in
/-- Parking a port with a visible head leaves one port fewer unparked and the
queues as they were. -/
theorem descends_park {m : Assembly σ} {now port : Nat}
    (h : (m.allocator.headAt? now port).isSome = true) : Descends m (m.park port) := by
  obtain ⟨txn, htxn⟩ := Option.isSome_iff_exists.mp h
  obtain ⟨p, hp, hhead⟩ := Allocator.headAt?_eq_some_iff.mp htxn
  have hopen := (RequestorPort.head?_eq_some_iff.mp hhead).1
  obtain ⟨hlt, hget⟩ := List.getElem?_eq_some_iff.mp hp
  have hports : (m.park port).allocator.ports =
      m.allocator.ports.set port { p with locked := true } := by
    unfold park
    rw [hp]
    rfl
  have hwait : (m.park port).allocator.waiting = m.allocator.waiting := by
    have := Allocator.waiting_setPort hp { p with locked := true }
    have hlen : ({ p with locked := true } : RequestorPort).length = p.length := rfl
    rw [hlen] at this
    unfold Allocator.waiting Allocator.setPort at *
    rw [hports]
    simp only at this
    omega
  have hcount : (m.park port).allocator.unparked < m.allocator.unparked := by
    unfold Allocator.unparked
    rw [hports, List.countP_set hlt, hget, hopen]
    have hpos : 0 < m.allocator.ports.countP fun p => !p.locked :=
      List.countP_pos_iff.mpr ⟨p, List.mem_of_getElem? hp, by simp [hopen]⟩
    simp only [Bool.not_false, Bool.not_true, Bool.false_eq_true, if_true, if_false]
    omega
  exact ⟨by rw [hports, List.length_set], Or.inr ⟨hwait, hcount⟩⟩

/-- A turn after which the loop goes on took transactions from their queues,
unless it parked its port.  A lock may have been dropped on the way, and every
port unparked, in the first case only. -/
theorem drained_or_parked_issueTurn {m m' : Assembly σ} {now : Nat} {turn : Turn}
    (h : m.issueTurn now = .ok turn m') (hturn : turn.goesOn = true) :
    Drained m m' ∨ (∃ port, turn = .parked port) ∧ Descends m m' := by
  rcases issueTurn_eq_ok h with ⟨rfl, -⟩ | ⟨granted, head, m₁, -, hhead, hchecked⟩
  · cases hturn
  have hvisible : (m.allocator.headAt? now granted).isSome = true := by rw [hhead]; rfl
  have hkeep := checkLock_keeps
    (m.note (.granted (m.allocator.readyMask now) granted head.cmd head.addr)) now granted head
  rcases hchecked with ⟨owner, hcheck, rfl, rfl⟩ | ⟨c, -, hcheck, hserved⟩
  · -- parked on a lock
    have hports := ports_checkLock_blocked hcheck
    have hhead : (m₁.allocator.headAt? now granted).isSome = true := by
      rw [headAt?_congr (hports.trans rfl)]
      exact hvisible
    have hdescends := descends_park hhead
    refine Or.inr ⟨⟨granted, rfl⟩, ?_⟩
    unfold Descends at hdescends ⊢
    unfold Allocator.waiting Allocator.unparked at hdescends ⊢
    rw [hports] at hdescends
    exact hdescends
  · -- served
    rw [hcheck] at hkeep
    have hd := serve_drained hserved hturn (hkeep.2.2 now granted hvisible)
    exact Or.inl (hd.of_ports ⟨hkeep.1, hkeep.2.1⟩ rfl)

/-- **A turn after which the loop goes on leaves less to do.** -/
theorem descends_issueTurn {m m' : Assembly σ} {now : Nat} {turn : Turn}
    (h : m.issueTurn now = .ok turn m') (hturn : turn.goesOn = true) : Descends m m' := by
  rcases drained_or_parked_issueTurn h hturn with hdrained | ⟨-, hdescends⟩
  · exact hdrained.descends
  · exact hdescends

theorem weight_issueTurn_lt {m m' : Assembly σ} {now : Nat} {turn : Turn}
    (h : m.issueTurn now = .ok turn m') (hturn : turn.goesOn = true) :
    m'.allocator.weight < m.allocator.weight :=
  (descends_issueTurn h hturn).weight_lt

/-! ### The loop -/

/-- Take turns until the memory is busy, the budget is spent or nothing is left
to issue. -/
def issueLoop (now issued : Nat) (m : Assembly σ) : Outcome σ Unit :=
  if m.allocator.backendPort.busy || m.allocator.config.maxIssuePerCycle ≤ issued then .ok () m
  else
    match _hturn : m.issueTurn now with
    | .error e m' => .error e m'
    | .ok turn m' =>
        if _hon : turn.goesOn = true then issueLoop now (issued + turn.cost) m' else .ok () m'
termination_by m.allocator.weight
decreasing_by exact weight_issueTurn_lt _hturn _hon

/-- The issue path of a cycle: the sweep of expired locks, then the turns. -/
def issue (m : Assembly σ) (now : Nat) : Outcome σ Unit := (m.sweepLocks now).issueLoop now 0

end Sending

end Assembly

/-- Where the loop takes a turn, the memory takes requests. -/
theorem Allocator.not_busy {a : Allocator} {issued : Nat}
    (h : ¬ (a.backendPort.busy || a.config.maxIssuePerCycle ≤ issued) = true) :
    a.backendPort.busy = false := by
  rw [Bool.or_eq_true, not_or, Bool.not_eq_true] at h
  exact h.1

end MemPort
