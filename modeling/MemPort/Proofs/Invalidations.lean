import MemPort.Bench.EchoMemory
import MemPort.Bench.Lanes
import MemPort.Proofs.Bookkeeping

/-!
# Lanes are told of every store, once

When the memory accepts a store, and when it performs one at once, every lane
but that of the store is told of it, in the order of the lanes.  Nothing else is
ever told to a lane: what the memory refuses, what is parked, what spills past
its line, and loads of either kind leave no trace with the lanes.

Three things are followed through a run: the stores that the memory took, what
the lanes were told, and the counter.  All steps but two leave the three as they
are, and each of these two adds one store to all of them.

## Main definitions

* `Recorded.stores` — the stores that the memory accepted or performed.
* `Recorded.snoopsOn` — what a lane was told.
* `Invalidations` — stores, snoops and the counter.
* `Invalidations.Exact` — the lanes were told of the stores, and the counter
  says so.
* `storesIn` — the stores of requestors that the memory carried out in some
  events.

## Main results

* `invalidations_issueTurn`, `invalidations_accessFunctional` — what the two
  steps add.
* `invalidations_of_genuine` — what a piece of a run adds.
* `Effect.reaches` — a store reaches the memory as it was submitted.
* `snoops_exact` — the lanes are told of the stores of others, and of nothing
  else.

## References

`SPEC_FULL.md`, section 4.4, step 5, and section 10.6, items 2 and 6: the
broadcast of snoops and their kinds.
-/

namespace MemPort

/-! ### What is recorded -/

/-- What the other lanes are to be told of a store. -/
def BackendRequest.snoop (r : BackendRequest) : Snoop :=
  ⟨r.addr, r.size, if r.cmd = .storeCond then .scUpgrade else .upgrade, r.origin⟩

/-- The store that the memory took, if it took one. -/
def Contact.store? : Contact → Option BackendRequest
  | .offered r true | .performed r _ => if r.cmd.isExclusive then some r else none
  | _ => none

/-- What a lane was told, if one was told anything. -/
def Contact.snoop? : Contact → Option (Nat × Snoop)
  | .snooped lane snoop => some (lane, snoop)
  | _ => none

namespace Recorded

variable {σ : Type}

/-- The stores that the memory accepted or performed, in order. -/
def stores (s : Recorded σ) : List BackendRequest := s.history.filterMap Contact.store?

/-- What the lanes were told, in order, with the lanes. -/
def snoops (s : Recorded σ) : List (Nat × Snoop) := s.history.filterMap Contact.snoop?

/-- What a lane was told, in order. -/
def snoopsOn (lane : Nat) (s : Recorded σ) : List Snoop :=
  s.snoops.filterMap fun x => if x.1 = lane then some x.2 else none

end Recorded

/-- The stores that the memory took, what the lanes were told, and how many
snoops were counted. -/
@[ext]
structure Invalidations where
  /-- The stores. -/
  stores : List BackendRequest
  /-- What the lanes were told. -/
  snoops : List (Nat × Snoop)
  /-- The counter. -/
  counted : Nat

namespace Invalidations

/-- Every lane but that of a store is told of it, and these are counted. -/
def tell (lanes : Nat) (v : Invalidations) (r : BackendRequest) : Invalidations where
  stores := v.stores
  snoops := v.snoops ++
    ((List.range lanes).filter (· != r.origin)).map fun lane => (lane, r.snoop)
  counted := satAdd v.counted (lanes - 1)

/-- A request that the memory carries out is told to the other lanes, if it is a
store. -/
def after (lanes : Nat) (v : Invalidations) (r : BackendRequest) : Invalidations :=
  if r.cmd.isExclusive then { v.tell lanes r with stores := v.stores ++ [r] } else v

/-- The memory takes a request. -/
def take (v : Invalidations) (r : BackendRequest) : Invalidations :=
  if r.cmd.isExclusive then { v with stores := v.stores ++ [r] } else v

end Invalidations

/-- The stores, snoops and the counter of an assembly. -/
def Assembly.invalidations {σ : Type} (m : Assembly (Recorded σ)) : Invalidations :=
  ⟨m.surroundings.stores, m.surroundings.snoops, m.allocator.stats.snoopsSent⟩

section Steps

variable {σ : Type} {m m' : Assembly (Recorded σ)}

theorem invalidations_congr (hs : m'.surroundings.contacts = m.surroundings.contacts)
    (hc : m'.allocator.stats.snoopsSent = m.allocator.stats.snoopsSent) :
    m'.invalidations = m.invalidations := by
  unfold Assembly.invalidations Recorded.stores Recorded.snoops Recorded.history
  rw [hs, hc]

/-- A call that is no store and tells no lane. -/
theorem invalidations_contact {c : Contact}
    (hs : m'.surroundings.contacts = c :: m.surroundings.contacts)
    (hc : m'.allocator.stats.snoopsSent = m.allocator.stats.snoopsSent)
    (hstore : c.store? = none) (hsnoop : c.snoop? = none) :
    m'.invalidations = m.invalidations := by
  unfold Assembly.invalidations Recorded.stores Recorded.snoops
  rw [Recorded.filterMap_history _ hs, Recorded.filterMap_history _ hs, hstore, hsnoop, hc]
  simp

/-- A request that the memory takes. -/
theorem invalidations_take {c : Contact} {r : BackendRequest}
    (hs : m'.surroundings.contacts = c :: m.surroundings.contacts)
    (hc : m'.allocator.stats.snoopsSent = m.allocator.stats.snoopsSent)
    (hstore : c.store? = if r.cmd.isExclusive then some r else none) (hsnoop : c.snoop? = none) :
    m'.invalidations = m.invalidations.take r := by
  unfold Assembly.invalidations Recorded.stores Recorded.snoops Invalidations.take
  rw [Recorded.filterMap_history _ hs, Recorded.filterMap_history _ hs, hstore, hsnoop, hc]
  split <;> simp

namespace Assembly

variable [Requestors σ]

theorem invalidations_notifyRetry (m : Assembly (Recorded σ)) (port : Nat) :
    (m.notifyRetry port).invalidations = m.invalidations :=
  invalidations_contact (c := .retried port) rfl rfl rfl rfl

theorem invalidations_retireHead (now : Nat) (m : Assembly (Recorded σ)) (port : Nat) :
    (m.retireHead now port).invalidations = m.invalidations := by
  unfold retireHead
  split
  · rfl
  · rename_i p _
    simp only
    cases p.pop? now with
    | none =>
      split
      · rw [invalidations_notifyRetry]
        rfl
      · rfl
    | some popped =>
      split
      · rw [invalidations_notifyRetry]
        rfl
      · rfl

theorem invalidations_retireHeads (now : Nat) (m : Assembly (Recorded σ)) (ports : List Nat) :
    (m.retireHeads now ports).invalidations = m.invalidations := by
  induction ports generalizing m with
  | nil => rfl
  | cons port rest ih =>
    have hrest := ih (m.retireHead now port)
    rw [invalidations_retireHead] at hrest
    exact hrest

/-! ### Telling the lanes -/

theorem contacts_snoopLanes {snoop : Snoop} {lanes : List Nat}
    (h : m.snoopLanes snoop lanes = .ok () m') :
    m'.surroundings.stores = m.surroundings.stores ∧
      m'.surroundings.snoops = m.surroundings.snoops ++ lanes.map (·, snoop) ∧
      m'.allocator = m.allocator := by
  induction lanes generalizing m with
  | nil =>
    cases h
    simp
  | cons lane rest ih =>
    unfold snoopLanes at h
    split at h
    · cases h
    · rename_i m₁ hsent
      obtain ⟨hstores, hsnoops, ha⟩ := ih h
      have ha₁ := allocator_settle hsent
      -- a snoop that was taken is the last contact of the record
      have hs₁ : m₁.surroundings.contacts = .snooped lane snoop :: m.surroundings.contacts := by
        rcases sendSnoop_eq (m.note (.snooping lane snoop)) lane snoop with
          ⟨m₂, hok, -, hm₂⟩ | ⟨a, m₂, herror, -⟩
        · rw [hok] at hsent
          cases hsent
          rw [hm₂]
          rfl
        · rw [herror] at hsent
          cases hsent
      refine ⟨?_, ?_, ha.trans ha₁⟩
      · rw [hstores]
        unfold Recorded.stores
        rw [Recorded.filterMap_history _ hs₁]
        simp [Contact.store?]
      · rw [hsnoops]
        unfold Recorded.snoops
        rw [Recorded.filterMap_history _ hs₁]
        simp [Contact.snoop?]

/-- **A store is told to every lane but its own.** -/
theorem invalidations_broadcast? {r : BackendRequest}
    (h : m.broadcast? (r.cmd.snoop? r.addr r.size r.origin) = .ok () m') :
    m'.invalidations = if r.cmd.isExclusive then
        m.invalidations.tell (Requestors.lanes m.surroundings) r
      else m.invalidations := by
  -- a snoop is made for an exclusive request, and for no other
  have hsnoop : r.cmd.snoop? r.addr r.size r.origin =
      if r.cmd.isExclusive then some r.snoop else none := by
    unfold BackendRequest.snoop
    cases r.cmd <;> rfl
  rw [hsnoop] at h
  split
  · rename_i hstore
    rw [if_pos hstore] at h
    unfold broadcast? broadcast at h
    simp only at h
    split at h
    · cases h
    · rename_i m₁ hlanes
      obtain ⟨hstores, hsnoops, ha⟩ := contacts_snoopLanes hlanes
      cases h
      refine Invalidations.ext hstores hsnoops ?_
      change (m₁.allocator.stats.recordSnoops _).snoopsSent = _
      rw [ha]
      rfl
  · rename_i hstore
    rw [if_neg hstore] at h
    cases h
    rfl

/-! ### Steps that tell nobody -/

theorem invalidations_answer (m : Assembly (Recorded σ)) (now : Nat) (response : BackendResponse) :
    (m.answer now response).left.invalidations = m.invalidations := by
  refine answer_keeps (P := fun m' => m'.invalidations = m.invalidations)
    (fun m' port completion h => ?_) (fun _ h => h) (fun _ h => h) m (fun _ => rfl) (fun _ => rfl)
  rw [left_deliver]
  refine Eq.trans ?_ h
  exact invalidations_contact rfl rfl rfl rfl

omit [Requestors σ] in
theorem invalidations_settleResponses [Backend σ] (m : Assembly (Recorded σ)) :
    m.settleResponses.invalidations = m.invalidations := by
  unfold settleResponses
  simp only
  split
  · exact invalidations_contact (c := .responseRetried) rfl rfl rfl rfl
  · rfl

omit [Requestors σ] in
theorem invalidations_sweepLocks (m : Assembly (Recorded σ)) (now : Nat) :
    (m.sweepLocks now).invalidations = m.invalidations := by
  obtain ⟨hs, ha | ⟨-, ha⟩⟩ := m.sweepLocks_cases now
  · exact invalidations_congr (congrArg _ hs) (by rw [ha]; rfl)
  · exact invalidations_congr (congrArg _ hs) (by rw [ha])

omit [Requestors σ] in
theorem invalidations_checkProgress (m : Assembly (Recorded σ)) (now : Nat) :
    (m.checkProgress now).left.invalidations = m.invalidations := by
  unfold checkProgress
  split
  · rfl
  · simp only
    split <;> rfl

omit [Requestors σ] in
theorem invalidations_park (m : Assembly (Recorded σ)) (port : Nat) :
    (m.park port).invalidations = m.invalidations := by
  unfold park
  split <;> rfl

omit [Requestors σ] in
theorem invalidations_checkLock (m : Assembly (Recorded σ)) (now port : Nat) (head : Transaction) :
    (m.checkLock now port head).2.invalidations = m.invalidations := by
  unfold checkLock
  simp only
  split <;> rfl

omit [Requestors σ] in
theorem surroundings_checkLock (m : Assembly (Recorded σ)) (now port : Nat) (head : Transaction) :
    (m.checkLock now port head).2.surroundings = m.surroundings := by
  unfold checkLock
  simp only
  split <;> rfl

omit [Requestors σ] in
theorem invalidations_lockAddress {now port : Nat} {sent : BackendRequest}
    (h : m.lockAddress now port sent = .ok m') : m'.invalidations = m.invalidations := by
  unfold lockAddress at h
  split at h
  · cases hacquire : m.allocator.locks.acquire sent.addr port now with
    | error v =>
      rw [hacquire] at h
      cases h
    | ok locks =>
      rw [hacquire] at h
      cases h
      rfl
  · cases h
    rfl

end Assembly

end Steps

/-! ### The two steps that tell the lanes -/

/-- The request that the memory took in a turn. -/
def Turn.sent? : Turn → Option BackendRequest
  | .sent _ request _ => some request
  | _ => none

/-- A memory that adds and removes no lane. -/
def KeepsLanes (σ : Type) [Requestors σ] [Backend σ] : Prop :=
  ∀ now request (s t : σ) accepted notices,
    Backend.accept now request s = .ok ⟨(accepted, t), notices⟩ →
    Requestors.lanes t = Requestors.lanes s

section Turns

variable {σ : Type} [Requestors σ] [Backend σ] {m m' : Assembly (Recorded σ)}

namespace Assembly

omit [Backend σ] in
theorem invalidations_commit {now granted : Nat} {request : Coalesced} {sent : BackendRequest}
    {turn : Turn} (h : m.commit now granted request sent = .ok turn m')
    (horigin : sent.origin = granted) :
    turn = .sent granted sent request ∧
      m'.invalidations = if sent.cmd.isExclusive then
          m.invalidations.tell (Requestors.lanes m.surroundings) sent
        else m.invalidations := by
  subst horigin
  obtain ⟨hturn, m₁, m₂, hlock, htold, rfl⟩ := commit_eq_ok h
  have hlocked := invalidations_lockAddress hlock
  have hs₁ := (lockAddress_eq_ok hlock).2
  have htold := invalidations_broadcast? htold
  rw [hlocked, hs₁] at htold
  refine ⟨hturn, Eq.trans ?_ htold⟩
  exact invalidations_retireHeads now _ request.ports

/-- **An offer that the memory accepts** adds a store to all three, and a
refusal to none. -/
theorem invalidations_offer (hkeeps : KeepsLanes σ) {now granted : Nat} {request : Coalesced}
    {turn : Turn} (h : m.offer now granted request = .ok turn m')
    (hfirst : request.first.port = granted) :
    m'.invalidations =
      turn.sent?.toList.foldl (·.after (Requestors.lanes m.surroundings)) m.invalidations := by
  obtain ⟨sent, answer, m₁, hsent, hanswer, hm₁, houtcome⟩ := offer_eq_ok h
  have horigin : sent.origin = granted := by
    rw [hsent, ← hfirst]
    unfold Coalesced.toBackend
    split <;> rfl
  rcases BackendPort.send_eq_ok hanswer with rfl | ⟨notices, haccept⟩
  · -- the memory is known to be busy, and not asked
    obtain ⟨hnot, -⟩ | ⟨-, rfl, rfl⟩ := houtcome
    · cases hnot
    · rw [hm₁]
      rfl
  · obtain ⟨hcontacts, hinner⟩ := contacts_accept haccept
    have hs₁ : m₁.surroundings = answer.value.2.2 := by rw [hm₁]
    have hstats : m₁.allocator.stats = m.allocator.stats := by rw [hm₁]
    obtain ⟨haccepted, hcommit⟩ | ⟨hrefused, rfl, rfl⟩ := houtcome
    · -- the memory has the store, and then the lanes are told
      rw [haccepted] at hcontacts
      have htaken : m₁.invalidations = m.invalidations.take sent := by
        refine invalidations_take (c := .offered sent true) ?_ ?_ rfl rfl
        · rw [hs₁, hcontacts]
        · rw [hstats]
      have hlanes : Requestors.lanes m₁.surroundings = Requestors.lanes m.surroundings := by
        rw [hs₁]
        exact hkeeps now sent _ _ _ notices hinner
      obtain ⟨rfl, hcommitted⟩ := invalidations_commit hcommit horigin
      rw [hcommitted, htaken, hlanes]
      simp only [Turn.sent?, Option.toList_some, List.foldl_cons, List.foldl_nil,
        Invalidations.after, Invalidations.take, Invalidations.tell]
      split <;> rfl
    · rw [hrefused, ← hs₁] at hcontacts
      have hcounted : (m₁.count .recordBackendBlocked).allocator.stats.snoopsSent =
          m.allocator.stats.snoopsSent := by
        rw [← hstats]
        rfl
      exact invalidations_contact (c := .offered sent false) hcontacts hcounted rfl rfl

theorem invalidations_foldOrOffer (hkeeps : KeepsLanes σ) {now granted : Nat} {request : Coalesced}
    {turn : Turn} (h : m.foldOrOffer now granted request = .ok turn m')
    (hfirst : request.first.port = granted) :
    m'.invalidations =
      turn.sent?.toList.foldl (·.after (Requestors.lanes m.surroundings)) m.invalidations := by
  rcases foldOrOffer_eq_ok h with ⟨id, folded, a, hfold, rfl, rfl⟩ | hoffer
  · obtain ⟨-, -, merged, -, -, rfl⟩ := Allocator.foldInTime?_eq_some hfold
    exact invalidations_retireHeads now _ request.ports
  · exact invalidations_offer hkeeps hoffer hfirst

theorem invalidations_serve (hkeeps : KeepsLanes σ) {now granted : Nat} {ready : List Bool}
    {head : Transaction} {turn : Turn} (h : m.serve now granted ready head = .ok turn m') :
    m'.invalidations =
      turn.sent?.toList.foldl (·.after (Requestors.lanes m.surroundings)) m.invalidations := by
  rcases serve_eq_ok h with ⟨-, request, m₁, hgather, ha, hs, hserved⟩ | ⟨-, hoffer⟩
  · have hfirst : request.first.port = granted := by
      rw [first_gather hgather]
      rfl
    rw [invalidations_foldOrOffer hkeeps hserved hfirst, hs,
      invalidations_congr (congrArg _ hs) (by rw [ha])]
  · exact invalidations_offer hkeeps hoffer rfl

/-- **A turn in which the memory takes a store** adds it to all three, and any
other to none. -/
theorem invalidations_issueTurn (hkeeps : KeepsLanes σ) {now : Nat} {turn : Turn}
    (h : m.issueTurn now = .ok turn m') :
    m'.invalidations =
      turn.sent?.toList.foldl (·.after (Requestors.lanes m.surroundings)) m.invalidations := by
  obtain ⟨rfl, rfl⟩ | ⟨granted, head, m₁, -, -, hcheck⟩ := issueTurn_eq_ok h
  · rfl
  have hchecked := invalidations_checkLock (m.note (.granted (m.allocator.readyMask now) granted
    head.cmd head.addr)) now granted head
  obtain ⟨owner, hcheck, rfl, rfl⟩ | ⟨c, -, hcheck, hserved⟩ := hcheck
  · rw [hcheck] at hchecked
    rw [invalidations_park]
    exact hchecked
  · have hquiet := surroundings_checkLock (m.note (.granted (m.allocator.readyMask now) granted
      head.cmd head.addr)) now granted head
    rw [hcheck] at hchecked hquiet
    have hserved := invalidations_serve hkeeps hserved
    rw [hchecked, hquiet] at hserved
    exact hserved

/-- **An access at once that the memory performs** adds a store to all three.
The lanes are told first. -/
theorem invalidations_accessFunctional {now port : Nat} {txn : Transaction} {response : Response}
    (h : m.accessFunctional now port txn = .ok response m') :
    m'.invalidations = m.invalidations.after (Requestors.lanes m.surroundings)
      ⟨functionalId, port, txn.cmd, txn.addr, txn.size, txn.data⟩ := by
  generalize hrequest : (⟨functionalId, port, txn.cmd, txn.addr, txn.size, txn.data⟩ :
    BackendRequest) = request
  obtain ⟨-, m₁, l, htold, hperform, -, rfl⟩ := accessFunctional_eq_ok h
  rw [hrequest] at hperform
  have htold : (m.note (.functional port txn)).broadcast?
      (request.cmd.snoop? request.addr request.size request.origin) = .ok () m₁ := by
    rw [← hrequest]
    exact htold
  have htold := invalidations_broadcast? htold
  refine Eq.trans (invalidations_take (m := m₁) (r := request)
    (contacts_accessFunctional hperform) rfl rfl rfl) ?_
  rw [htold]
  unfold Invalidations.take Invalidations.after
  split <;> rfl

end Assembly

end Turns

/-! ### Pieces of a run -/

namespace Event

/-- The requests that the memory took. -/
def requests : Event → List BackendRequest
  | turned _ (.ok (.sent _ sent _)) => [sent]
  | performed _ port txn (.ok _) =>
    [⟨functionalId, port, txn.cmd, txn.addr, txn.size, txn.data⟩]
  | _ => []

/-- The stores of requestors that the memory carried out. -/
def stores : Event → List Origin
  | turned _ (.ok (.sent _ _ request)) => request.origins.filter (·.txn.cmd.isExclusive)
  | performed _ port txn (.ok _) => [(⟨port, txn⟩ : Origin)].filter (·.txn.cmd.isExclusive)
  | _ => []

end Event

/-- The stores of requestors that the memory carried out, in order. -/
def storesIn (es : List Event) : List Origin := es.flatMap Event.stores

/-- A transaction reaches the memory as it was submitted. -/
def Origin.Reaches (o : Origin) (r : BackendRequest) : Prop :=
  r = ⟨r.id, o.port, o.txn.cmd, o.txn.addr, o.txn.size, o.txn.data⟩

/-- A store shares its access with nobody, and is sent as it is. -/
theorem Coalesced.FormedFrom.reaches {request : Coalesced} {a : Allocator} {now granted : Nat}
    {head : Transaction} (h : request.FormedFrom a now granted head) {id lineSize : Nat}
    {sent : BackendRequest} (hsent : sent = request.toBackend id lineSize) :
    List.Forall₂ Origin.Reaches (request.origins.filter (·.txn.cmd.isExclusive))
      ([sent].filter (·.cmd.isExclusive)) := by
  have hcmd : sent.cmd = request.cmd := by rw [hsent, cmd_toBackend]
  rw [List.filter_cons, hcmd]
  split
  · rename_i hstore
    have hread : request.cmd ≠ .read := by
      intro hread
      rw [hread] at hstore
      cases hstore
    -- a store rides alone, so it is the whole of its request
    have halone : request.folded = [] := h.folded_eq_nil (by rwa [← h.cmd_eq])
    unfold toBackend at hsent
    rw [if_neg (mt (Command.isCoalescable_iff _).mp hread)] at hsent
    unfold origins
    have hfirst : request.first.txn.cmd.isExclusive = true := hstore
    rw [halone, List.filter_cons, if_pos hfirst, hsent]
    exact .cons rfl .nil
  · rename_i hload
    -- the origins of a load are loads
    have hnone : request.origins.filter (·.txn.cmd.isExclusive) = [] := by
      rw [List.filter_eq_nil_iff]
      intro o ho
      rw [(h.uniform o ho).2]
      exact hload
    rw [hnone]
    exact .nil

section Pieces

variable {σ : Type} [Requestors σ] [Backend σ]

theorem Relays.snoopsSent {a b : Allocator} (h : Relays a b) :
    b.stats.snoopsSent = a.stats.snoopsSent := by
  obtain ⟨_, _, rfl⟩ := h.frame
  rfl

/-- **What a piece of a run adds** to the stores, the snoops and the counter. -/
theorem invalidations_of_genuine {x : Moment σ} (hx : x.Genuine) (hok : x.event.isBroken = false)
    (hkeeps : KeepsLanes σ) :
    x.after.invalidations =
      x.event.requests.foldl (·.after (Requestors.lanes x.before.surroundings))
        x.before.invalidations := by
  have heffect := effect_of_genuine hx hok
  cases hx with
  | submitted m now port txn =>
    simp only [Event.requests, List.foldl_nil]
    obtain ⟨l, hsubmit, heq⟩ := Assembly.exists_of_submit (Event.ne_assertion hok rfl)
    obtain ⟨p, -, hl⟩ := Allocator.exists_of_submit hsubmit
    rw [heq, hl]
    refine invalidations_congr rfl ?_
    change ((if _ then Counters.recordAccept else Counters.recordRequestorReject)
      m.allocator.stats).snoopsSent = m.allocator.stats.snoopsSent
    split <;> rfl
  | received m now response =>
    refine invalidations_congr rfl ?_
    change (m.allocator.receive now response).value.2.stats.snoopsSent = _
    exact Relays.snoopsSent (.received now response .refl)
  | resumed m => rfl
  | performed m now port txn =>
    cases hperformed : m.accessFunctional now port txn with
    | ok response m' => exact Assembly.invalidations_accessFunctional hperformed
    | error e m' =>
      -- only an access that spills is refused, and then nothing happens
      rw [hperformed] at heffect
      cases heffect with
      | rejected h => exact congrArg Assembly.invalidations h
  | elapsed m a s j h => exact invalidations_congr rfl h.snoopsSent
  | interrupted m now a => rfl
  | answered m now response port h =>
    exact Assembly.invalidations_answer (m.update fun a => { a with backendPort := port })
      now response
  | settled m now => exact m.invalidations_settleResponses
  | swept m now => exact m.invalidations_sweepLocks now
  | checked m now => exact m.invalidations_checkProgress now
  | turned m now hbusy =>
    cases hturn : m.issueTurn now with
    | ok turn m' =>
      have hturned := Assembly.invalidations_issueTurn hkeeps hturn
      cases turn <;> exact hturned
    | error e m' =>
      rw [hturn] at heffect
      have hcleared : ∀ {m₁ : Assembly (Recorded σ)} {granted : Nat} {head : Transaction},
          Assembly.Cleared m m₁ now granted head → m₁.invalidations = m.invalidations := by
        intro m₁ granted head h
        refine invalidations_congr (congrArg Recorded.contacts h.surroundings) ?_
        rw [h.counted]
        split <;> rfl
      cases heffect with
      | turned _ hok h =>
        cases h with
        | spilled h => exact hcleared h
        | served h hformed hserved =>
          cases hserved with
          | broken a => exact absurd rfl (hok a)
          | duplicate m' h' => exact (congrArg Assembly.invalidations h').trans (hcleared h)

/-- **A store reaches the memory as it was submitted**, and nothing else is a
store to it. -/
theorem Effect.reaches {m m' : Assembly (Recorded σ)} {e : Event} (h : Effect m m' e) :
    List.Forall₂ Origin.Reaches e.stores (e.requests.filter (·.cmd.isExclusive)) := by
  cases h with
  | performed ha hs =>
    simp only [Event.stores, Event.requests, List.filter_cons, List.filter_nil]
    split
    · exact .cons rfl .nil
    · exact .nil
  | turned _ _ h =>
    cases h with
    | served hcleared hformed hserved =>
      cases hserved with
      | sent hsends htarget => exact hformed.reaches hsends.sent_eq
      | _ => exact .nil
    | _ => exact .nil
  | _ => exact .nil

end Pieces

/-! ### Whole runs -/

/-- The snoops that a lane gets of a store are one, if the store is of another. -/
theorem filterMap_told (lanes origin lane : Nat) (snoop : Snoop) :
    (((List.range lanes).filter (· != origin)).map fun l => (l, snoop)).filterMap
        (fun x => if x.1 = lane then some x.2 else none) =
      if lane < lanes ∧ lane ≠ origin then [snoop] else [] := by
  -- on the number of lanes; the last one is the origin, or `lane`, or neither
  induction lanes with
  | zero => rfl
  | succ n ih =>
    rw [List.range_succ, List.filter_append, List.map_append, List.filterMap_append, ih]
    by_cases horigin : n = origin
    · simp only [List.filter_cons, horigin, bne_self_eq_false, Bool.false_eq_true, if_false,
        List.filter_nil, List.map_nil, List.filterMap_nil, List.append_nil]
      split <;> split <;> first | rfl | omega
    · simp only [List.filter_cons, bne_iff_ne, ne_eq, horigin, not_false_eq_true, if_true,
        List.filter_nil, List.map_cons, List.map_nil, List.filterMap_cons, List.filterMap_nil]
      by_cases hlane : n = lane
      · subst hlane
        rw [if_pos rfl, if_neg (by omega), if_pos (by omega)]
        rfl
      · rw [if_neg hlane, List.append_nil]
        split <;> split <;> first | rfl | omega

namespace Invalidations

/-- The lanes were told of the stores, and the counter says so. -/
structure Exact (lanes : Nat) (v : Invalidations) : Prop where
  /-- Every lane was told of the stores of others, in order. -/
  told : ∀ lane < lanes,
    v.snoops.filterMap (fun x => if x.1 = lane then some x.2 else none) =
      (v.stores.filter (·.origin != lane)).map BackendRequest.snoop
  /-- Every lane but one was told of each store, and this is counted. -/
  counted : v.counted = min ((lanes - 1) * v.stores.length) maxWord

theorem exact_nothing (lanes : Nat) : Exact lanes ⟨[], [], 0⟩ := by
  refine ⟨fun _ _ => rfl, ?_⟩
  rw [List.length_nil, Nat.mul_zero, Nat.zero_min]

/-- **A request that the memory carries out** keeps the books of snoops exact. -/
theorem Exact.after {lanes : Nat} {v : Invalidations} (h : v.Exact lanes) (r : BackendRequest) :
    (v.after lanes r).Exact lanes := by
  unfold Invalidations.after
  split
  · refine ⟨fun lane hlane => ?_, ?_⟩
    · simp only [tell]
      rw [List.filterMap_append, h.told lane hlane, filterMap_told, List.filter_append,
        List.map_append, List.filter_cons, List.filter_nil]
      by_cases horigin : r.origin = lane
      · simp [horigin]
      · simp [hlane, horigin, Ne.symm horigin]
    · simp only [tell]
      rw [h.counted, List.length_append, List.length_singleton, Nat.mul_succ]
      unfold satAdd
      omega
  · exact h

theorem stores_foldl_after (lanes : Nat) (v : Invalidations) (rs : List BackendRequest) :
    (rs.foldl (·.after lanes) v).stores = v.stores ++ rs.filter (·.cmd.isExclusive) := by
  induction rs generalizing v with
  | nil => exact (List.append_nil _).symm
  | cons r rest ih =>
    rw [List.foldl_cons, ih, List.filter_cons]
    unfold Invalidations.after
    split <;> simp

theorem foldl_after_of_loads {lanes : Nat} {rs : List BackendRequest}
    (h : rs.filter (·.cmd.isExclusive) = []) (v : Invalidations) :
    rs.foldl (·.after lanes) v = v := by
  induction rs generalizing v with
  | nil => rfl
  | cons r rest ih =>
    rw [List.filter_cons] at h
    split at h
    · cases h
    · rename_i hload
      rw [List.foldl_cons, ih h]
      unfold Invalidations.after
      rw [if_neg hload]

theorem Exact.foldl {lanes : Nat} {v : Invalidations} (h : v.Exact lanes)
    (rs : List BackendRequest) : (rs.foldl (·.after lanes) v).Exact lanes := by
  induction rs generalizing v with
  | nil => exact h
  | cons r rest ih => exact ih (h.after r)

end Invalidations

/-- A memory that is apart from the requestors keeps the lanes. -/
theorem keepsLanes_pair (ρ β : Type) [Requestors ρ] [Backend β] : KeepsLanes (ρ × β) := by
  intro now request s t accepted notices h
  obtain ⟨l, -, hl⟩ := exists_of_map_eq_ok h
  cases hl
  rfl

section Runs

variable {σ : Type} [Requestors σ] [Backend σ]

/-- **In a run, the lanes are told of the stores**, and these are those of the
requestors. -/
theorem Linked.invalidations {m : Assembly (Recorded σ)} {ms : List (Moment σ)} {lanes : Nat}
    (h : Linked m ms) (hok : Unbroken ms) (hkeeps : KeepsLanes σ)
    (hlanes : ∀ x ∈ ms, Requestors.lanes x.before.surroundings = lanes)
    (hstart : m.invalidations = ⟨[], [], 0⟩) :
    (endOf m ms).invalidations.Exact lanes ∧
      List.Forall₂ Origin.Reaches (storesIn (ms.map (·.event)))
        (endOf m ms).invalidations.stores := by
  refine Linked.induct (P := fun ms m => m.invalidations.Exact lanes ∧
    List.Forall₂ Origin.Reaches (storesIn (ms.map (·.event))) m.invalidations.stores) ?_ ?_
      h hok hlanes
  · rw [hstart]
    exact ⟨Invalidations.exact_nothing lanes, .nil⟩
  · rintro pre x ⟨hexact, hstores⟩ hx hok rfl
    rw [invalidations_of_genuine hx hok hkeeps, Invalidations.stores_foldl_after]
    refine ⟨hexact.foldl _, ?_⟩
    have hreaches := (effect_of_genuine hx hok).reaches
    unfold storesIn at hstores ⊢
    rw [List.map_append, List.flatMap_append, List.map_singleton, List.flatMap_singleton]
    exact List.rel_append hstores hreaches

/-- **Snoops are exact.**  In every run of a new allocator in which no contract
is broken, every lane is told of the stores that the memory accepted or
performed for the others, one by one and in order.  These are the stores of the
requestors that were carried out, each as it was submitted.  All but one lane
are counted for each of them.  A piece of the run in which the memory carries
out no store, be it a load, a refusal, a port that is parked, or an access that
spills past its line, tells nobody anything.

There is one lane for every port, and the memory adds and removes none. -/
theorem snoops_exact {config : AllocatorConfig} {a : Allocator}
    (hnew : Allocator.new config = .ok a) (s : σ) (j : Journal) {calls : List (Call σ)}
    {ms : List (Moment σ)} (hms : ms <+: run calls ⟨a, .start s, j⟩) (hok : Unbroken ms)
    (hkeeps : KeepsLanes σ)
    (hlanes : ∀ x ∈ ms, Requestors.lanes x.before.surroundings.inner = config.numPorts) :
    (∀ lane < config.numPorts, (endOf ⟨a, .start s, j⟩ ms).surroundings.snoopsOn lane =
      ((endOf ⟨a, .start s, j⟩ ms).surroundings.stores.filter (·.origin != lane)).map
        BackendRequest.snoop) ∧
    List.Forall₂ Origin.Reaches (storesIn (ms.map (·.event)))
      (endOf ⟨a, .start s, j⟩ ms).surroundings.stores ∧
    (endOf ⟨a, .start s, j⟩ ms).allocator.stats.snoopsSent =
      min ((config.numPorts - 1) * (endOf ⟨a, .start s, j⟩ ms).surroundings.stores.length)
        maxWord ∧
    ∀ x ∈ ms, x.event.stores = [] → x.after.surroundings.snoops =
      x.before.surroundings.snoops := by
  have hlinked := (linked_run calls ⟨a, .start s, j⟩).initial hms
  have hstart : (⟨a, .start s, j⟩ : Assembly (Recorded σ)).invalidations =
      ⟨[], [], 0⟩ := by
    rw [(Allocator.eq_of_new hnew).2]
    rfl
  obtain ⟨hexact, hstores⟩ := hlinked.invalidations hok hkeeps hlanes hstart
  refine ⟨hexact.told, hstores, hexact.counted, ?_⟩
  intro x hx hnone
  -- the moment is genuine, and what it adds is the snoops of its stores
  obtain ⟨pre, post, rfl⟩ := List.append_of_mem hx
  obtain ⟨-, -, -, hgenuine, -⟩ := hlinked.split_cons
  have hreaches := (effect_of_genuine hgenuine (hok x hx)).reaches
  rw [hnone, List.forall₂_nil_left_iff] at hreaches
  have hadds := invalidations_of_genuine hgenuine (hok x hx) hkeeps
  rw [Invalidations.foldl_after_of_loads hreaches] at hadds
  exact congrArg Invalidations.snoops hadds

/-- A lane locks an address.  The store of a second is refused twice by a closed
memory, and accepted by an open one.  The store-conditional of a third is
parked, and that of the first goes out.  At last the second stores at once, and
then tries to store past the end of a line. -/
def contestedAddress : List (Call (Lanes × EchoMemory)) :=
  [.submit 0 0 (.load .loadLocked 1 64 4), .tick 0, .elapse fun s => (s.1, s.2.close),
    .submit 1 1 (.store .write 2 128 [1, 2, 3, 4]), .tick 1, .backendRetry, .tick 2,
    .elapse fun s => (s.1, s.2.reopen), .backendRetry, .tick 3,
    .submit 4 2 (.store .storeCond 3 64 [5, 6, 7, 8]), .tick 4,
    .submit 5 0 (.store .storeCond 4 64 [9, 9, 9, 9]), .tick 5,
    .functional 6 1 (.store .write 5 256 [1]), .functional 7 1 (.store .write 6 126 [1, 2, 3, 4])]

/-- Where the three lanes begin. -/
def contestedAddressStart : Assembly (Recorded (Lanes × EchoMemory)) :=
  ⟨.ofConfig { numPorts := 3, requestLatency := 0 }, .start (Lanes.plain 3, EchoMemory.new false),
    .start .warn⟩

/-- The first lane is told of both stores of the second, and the third of all
three. -/
theorem snoops_exact_contestedAddress :
    (endOf contestedAddressStart
      (run contestedAddress contestedAddressStart)).surroundings.snoopsOn 0 =
      [⟨128, 4, .upgrade, 1⟩, ⟨256, 1, .upgrade, 1⟩] ∧
    (endOf contestedAddressStart
      (run contestedAddress contestedAddressStart)).surroundings.snoopsOn 2 =
      [⟨128, 4, .upgrade, 1⟩, ⟨64, 4, .scUpgrade, 0⟩, ⟨256, 1, .upgrade, 1⟩] ∧
    (endOf contestedAddressStart
      (run contestedAddress contestedAddressStart)).allocator.stats.snoopsSent = 6 := by
  have hnew : Allocator.new { numPorts := 3, requestLatency := 0 } =
      .ok contestedAddressStart.allocator := by rfl
  obtain ⟨htold, -, hcounted, -⟩ := snoops_exact hnew contestedAddressStart.surroundings.inner
    (.start .warn) List.prefix_rfl
    (by decide +kernel : Unbroken (run contestedAddress contestedAddressStart))
    (keepsLanes_pair Lanes EchoMemory) (by decide +kernel)
  have hstores : (endOf contestedAddressStart
      (run contestedAddress contestedAddressStart)).surroundings.stores =
      [⟨1, 1, .write, 128, 4, [1, 2, 3, 4]⟩, ⟨2, 0, .storeCond, 64, 4, [9, 9, 9, 9]⟩,
        ⟨functionalId, 1, .write, 256, 1, [1]⟩] := by decide +kernel
  refine ⟨(htold 0 (by decide)).trans ?_, (htold 2 (by decide)).trans ?_, hcounted.trans ?_⟩
  · exact (congrArg (fun rs : List BackendRequest =>
      (rs.filter (·.origin != 0)).map BackendRequest.snoop) hstores).trans rfl
  · exact (congrArg (fun rs : List BackendRequest =>
      (rs.filter (·.origin != 2)).map BackendRequest.snoop) hstores).trans rfl
  · exact (congrArg (fun rs : List BackendRequest => min (2 * rs.length) maxWord) hstores).trans
      rfl

end Runs

end MemPort
