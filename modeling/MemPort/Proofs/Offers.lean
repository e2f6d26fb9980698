import MemPort.Bench.EchoMemory
import MemPort.Bench.Lanes
import MemPort.Proofs.Bookkeeping
import MemPort.Proofs.Lines

/-!
# What is offered to the memory

A request that the memory refuses is not lost: the allocator waits until the
memory calls, and then offers again, under the number that it used in vain.  So
the requests that the memory accepts are numbered without a gap.

What passes between the two is read off a run (`exchangesIn`), and the offers
among it are those that the memory saw (`Recorded.offers`).  Three parts of the
allocator take part in the protocol: the number of the next request, the flag of
the backend port, and the budget of a cycle.  One piece of a run moves the first
two in one of four ways (`Exchanged`), and the third is counted down by the
turns of a cycle (`Rationed`).

## Main definitions

* `Exchange`, `exchangesIn` — what passes between the allocator and the
  memory.
* `Orderly` — offers are numbered by the acceptances before them, and none is
  made out of turn.
* `Rationed` — what one cycle may offer.
* `BackendRequest.Serves` — what a request asks for on behalf of a head.

## Main results

* `Effect.exchanged` — what a piece of a run does to the number and the flag.
* `rationed_tick` — a cycle keeps to its budget, and ends with a refusal if
  there is one.
* `offer_protocol` — the protocol of offers over a run.

## References

`SPEC_FULL.md`, section 4.2 and section 4.4, step 5: what is offered to the
memory, and when.
-/

namespace MemPort

/-! ### Exchanges with the memory -/

/-- What passes between the allocator and the memory on behalf of requests. -/
inductive Exchange where
  /-- A request was offered, and accepted or refused. -/
  | offered (request : BackendRequest) (accepted : Bool)
  /-- The memory called: it takes requests again. -/
  | resumed
  deriving DecidableEq

namespace Exchange

/-- Whether a request was offered. -/
def isOffer : Exchange → Bool
  | offered .. => true
  | resumed => false

/-- Whether a request was accepted. -/
def isAccepted : Exchange → Bool
  | offered _ accepted => accepted
  | resumed => false

/-- Whether the memory owes a call after an exchange. -/
def leavesDebt (before : Bool) : Exchange → Bool
  | offered _ accepted => before || !accepted
  | resumed => false

end Exchange

/-- The number of requests that were accepted. -/
def acceptances (xs : List Exchange) : Nat := xs.countP Exchange.isAccepted

/-- Whether the memory refused a request and has not called since. -/
def owesCall (xs : List Exchange) : Bool := xs.foldl Exchange.leavesDebt false

/-- Offers are numbered by the acceptances before them, and none is made to a
memory that owes a call. -/
def Orderly (xs : List Exchange) : Prop :=
  ∀ earlier request accepted later, xs = earlier ++ .offered request accepted :: later →
    request.id = acceptances earlier ∧ owesCall earlier = false

section Exchanges

variable {xs earlier mid : List Exchange} {x : Exchange} {refused : BackendRequest}

theorem acceptances_concat (xs : List Exchange) (x : Exchange) :
    acceptances (xs ++ [x]) = acceptances xs + if x.isAccepted then 1 else 0 := by
  unfold acceptances
  rw [List.countP_append, List.countP_singleton]

theorem owesCall_concat (xs : List Exchange) (x : Exchange) :
    owesCall (xs ++ [x]) = x.leavesDebt (owesCall xs) := by
  unfold owesCall
  rw [List.foldl_append]
  rfl

/-- A debt lasts until the memory calls. -/
theorem foldl_leavesDebt (h : .resumed ∉ mid) : mid.foldl Exchange.leavesDebt true = true := by
  induction mid with
  | nil => rfl
  | cons x rest ih =>
    cases x with
    | offered request accepted => exact ih fun hrest => h (List.mem_cons_of_mem _ hrest)
    | resumed => exact absurd List.mem_cons_self h

/-- **After a refusal, the debt is gone only if the memory called.** -/
theorem resumed_mem_of_owesCall
    (h : owesCall (earlier ++ .offered refused false :: mid) = false) : .resumed ∈ mid := by
  by_contra hnone
  have hdebt : owesCall (earlier ++ .offered refused false :: mid) = true := by
    have hleaves : Exchange.leavesDebt (owesCall earlier) (.offered refused false) = true :=
      Bool.or_true _
    unfold owesCall at hleaves ⊢
    rw [List.foldl_append, List.foldl_cons, hleaves]
    exact foldl_leavesDebt hnone
  rw [h] at hdebt
  cases hdebt

theorem orderly_nil : Orderly [] := by
  intro earlier request accepted later h
  cases earlier <;> cases h

theorem Orderly.concat (h : Orderly xs)
    (hx : ∀ request accepted, x = .offered request accepted →
    request.id = acceptances xs ∧ owesCall xs = false) : Orderly (xs ++ [x]) := by
  intro earlier request accepted later heq
  rcases eq_or_of_concat_eq heq with ⟨rfl, hlast, -⟩ | ⟨rest, -, hbefore⟩
  · exact hx request accepted hlast.symm
  · exact h earlier request accepted rest hbefore

end Exchanges

/-! ### What a piece of a run exchanges -/

/-- What passed between the allocator and the memory. -/
def Event.exchanges : Event → List Exchange
  | turned _ (.ok (.sent _ sent _)) => [.offered sent true]
  | turned _ (.ok (.refused _ sent)) => [.offered sent false]
  | resumed => [.resumed]
  | _ => []

theorem Event.exchanges_of_peripheral {e : Event} (h : e.isPeripheral = true) :
    e.exchanges = [] := by
  unfold isPeripheral at h
  split at h <;> first | rfl | cases h

/-- What passed between the allocator and the memory over some events. -/
def exchangesIn (es : List Event) : List Exchange := es.flatMap Event.exchanges

theorem exchangesIn_append (es es' : List Event) :
    exchangesIn (es ++ es') = exchangesIn es ++ exchangesIn es' := List.flatMap_append

theorem exchangesIn_cons (e : Event) (es : List Event) :
    exchangesIn (e :: es) = e.exchanges ++ exchangesIn es := rfl

/-- What an exchange does to the number of the next request and to the flag of
the backend port. -/
inductive Exchanged (a b : Allocator) : List Exchange → Prop
  /-- Nothing was exchanged. -/
  | nothing (hid : b.nextId = a.nextId) (hbusy : b.backendPort.busy = a.backendPort.busy) :
      Exchanged a b []
  /-- A request was accepted under the next number, which is used up. -/
  | accepted {request : BackendRequest} (hready : a.backendPort.busy = false)
      (hnumber : request.id = a.nextId) (hid : b.nextId = a.nextId + 1)
      (hbusy : b.backendPort.busy = false) : Exchanged a b [.offered request true]
  /-- A request was refused under the next number, which stays. -/
  | refused {request : BackendRequest} (hready : a.backendPort.busy = false)
      (hnumber : request.id = a.nextId) (hid : b.nextId = a.nextId)
      (hbusy : b.backendPort.busy = true) : Exchanged a b [.offered request false]
  /-- The memory called. -/
  | resumed (hid : b.nextId = a.nextId) (hbusy : b.backendPort.busy = false) :
      Exchanged a b [.resumed]

/-- The number of the next request and the flag of the backend port are in line
with what was exchanged. -/
structure Exchanging (xs : List Exchange) (a : Allocator) : Prop where
  /-- The next request has the number of acceptances. -/
  number : a.nextId = acceptances xs
  /-- The port is busy while the memory owes a call. -/
  busy : a.backendPort.busy = owesCall xs
  /-- The offers were orderly. -/
  orderly : Orderly xs

/-- An offer keeps them in line, whether it is accepted or not. -/
theorem Exchanging.offered {xs : List Exchange} {a b : Allocator} {request : BackendRequest}
    {accepted : Bool} (h : Exchanging xs a) (hready : a.backendPort.busy = false)
    (hnumber : request.id = a.nextId) (hid : b.nextId = a.nextId + if accepted then 1 else 0)
    (hbusy : b.backendPort.busy = !accepted) :
    Exchanging (xs ++ [.offered request accepted]) b := by
  have howes : owesCall xs = false := h.busy ▸ hready
  refine ⟨?_, ?_, h.orderly.concat ?_⟩
  · rw [acceptances_concat, hid, h.number]
    rfl
  · rw [owesCall_concat, howes, hbusy]
    rfl
  · rintro _ _ ⟨⟩
    exact ⟨hnumber.trans h.number, howes⟩

/-- **One piece keeps them in line.** -/
theorem Exchanging.step {xs ys : List Exchange} {a b : Allocator} (h : Exchanging xs a)
    (hstep : Exchanged a b ys) : Exchanging (xs ++ ys) b := by
  cases hstep with
  | nothing hid hbusy =>
    rw [List.append_nil]
    exact ⟨hid.trans h.number, hbusy.trans h.busy, h.orderly⟩
  | accepted hready hnumber hid hbusy => exact h.offered hready hnumber hid hbusy
  | refused hready hnumber hid hbusy => exact h.offered hready hnumber hid hbusy
  | resumed hid hbusy =>
    refine ⟨?_, ?_, h.orderly.concat nofun⟩
    · rw [acceptances_concat, hid, h.number]
      rfl
    · rw [owesCall_concat, hbusy]
      rfl

section Genuine

variable {σ : Type} [Requestors σ] [Backend σ]

/-- **What a piece of a run does to the number and the flag**, unless the memory
calls by itself. -/
theorem Effect.exchanged {m m' : Assembly (Recorded σ)} {e : Event} (h : Effect m m' e)
    (helapsed : e = .elapsed → m'.allocator = m.allocator) :
    Exchanged m.allocator m'.allocator e.exchanges := by
  by_cases hperipheral : e.isPeripheral = true
  · obtain ⟨ports, locks, stats, _, _, -, ha⟩ := h.frame hperipheral
    rw [Event.exchanges_of_peripheral hperipheral, ha]
    exact .nothing rfl rfl
  -- the memory calls, or an answer leaves its queue, or a turn makes an offer
  cases h with
  | @received now response taken ha _ =>
    rw [show m'.allocator = _ from (congrArg Prod.snd ha).symm]
    unfold Allocator.receive BackendPort.receive
    split <;> exact .nothing rfl rfl
  | resumed ha _ =>
    rw [ha]
    exact .resumed rfl rfl
  | elapsed _ _ =>
    rw [helapsed rfl]
    exact .nothing rfl rfl
  | answered hdrain ha _ _ =>
    obtain ⟨stats, lastActive, ha⟩ := ha
    rw [ha]
    exact .nothing rfl (BackendPort.pending_drain? hdrain).2.1
  | settled ha _ =>
    rw [ha]
    exact .nothing rfl rfl
  | turned hbusy _ h =>
    cases h with
    | @served m₁ _ granted head request result hcleared _ hserved =>
      have hid := hcleared.nextId_eq
      have hport := hcleared.backendPort_eq
      cases hserved with
      | refused h =>
        obtain ⟨stats, ha⟩ := h.allocator
        rw [ha]
        refine .refused hbusy ?_ hid rfl
        rw [h.sent_eq, Coalesced.id_toBackend, hid]
      | sent h _ =>
        obtain ⟨ports, stats, locks, -, ha⟩ := h.allocator
        rw [ha]
        refine .accepted hbusy ?_ (congrArg (· + 1) hid) ?_
        · rw [h.sent_eq, Coalesced.id_toBackend, hid]
        · exact (congrArg BackendPort.busy hport).trans hbusy
      | folded h _ =>
        obtain ⟨pending, merged, ports, stats, -, -, ha⟩ := h.allocator
        rw [ha]
        exact .nothing hid (congrArg BackendPort.busy hport)
      | _ => exact absurd rfl hperipheral
    | _ => exact absurd rfl hperipheral
  | _ => exact absurd rfl hperipheral

/-- The number and the flag are in line over a run. -/
theorem Linked.exchanging {m : Assembly (Recorded σ)} {ms : List (Moment σ)} (h : Linked m ms)
    (hok : Unbroken ms)
    (helapsed : ∀ x ∈ ms, x.event = .elapsed → x.after.allocator = x.before.allocator)
    (hstart : Exchanging [] m.allocator) :
    Exchanging (exchangesIn (ms.map (·.event))) (endOf m ms).allocator := by
  refine Linked.induct
    (P := fun pre m' => Exchanging (exchangesIn (pre.map (·.event))) m'.allocator)
    (R := fun x => x.event = .elapsed → x.after.allocator = x.before.allocator)
    hstart ?_ h hok helapsed
  intro pre x hpre hx hokx helapsedx
  rw [List.map_append, exchangesIn_append, List.map_singleton, exchangesIn_cons]
  unfold exchangesIn
  rw [List.flatMap_nil, List.append_nil]
  exact hpre.step ((effect_of_genuine hx hokx).exchanged helapsedx)

omit [Requestors σ] [Backend σ] in
theorem exchanging_new {config : AllocatorConfig} {a : Allocator}
    (hnew : Allocator.new config = .ok a) : Exchanging [] a := by
  rw [(Allocator.eq_of_new hnew).2]
  exact ⟨rfl, rfl, orderly_nil⟩

/-! ### What the memory saw -/

/-- The offer that a call made, if it was one. -/
def Contact.offer? : Contact → Option Exchange
  | .offered request accepted => some (.offered request accepted)
  | _ => none

/-- The offers that were made to the memory, in order. -/
def Recorded.offers {σ : Type} (s : Recorded σ) : List Exchange :=
  s.history.filterMap Contact.offer?

omit [Requestors σ] [Backend σ] in
theorem Recorded.offers_of_contact {s t : Recorded σ} {c : Contact}
    (h : t.contacts = c :: s.contacts) :
    t.offers = s.offers ++ (Contact.offer? c).toList :=
  Recorded.filterMap_history Contact.offer? h

omit [Requestors σ] [Backend σ] in
/-- A call that is no offer adds none. -/
theorem Recorded.offers_of_other {s t : Recorded σ} {c : Contact} (hc : Contact.offer? c = none)
    (h : t.contacts = c :: s.contacts) : t.offers = s.offers := by
  rw [Recorded.offers_of_contact h, hc]
  exact List.append_nil _

omit [Backend σ] in
theorem Notified.offers_eq {s t : Recorded σ} (h : Notified s t) : t.offers = s.offers :=
  h.eq_of Recorded.offers (fun port _ => Recorded.offers_of_other (c := .retried port) rfl rfl)
    fun lane snoop _ => Recorded.offers_of_other (c := .snooped lane snoop) rfl rfl

/-- Unless an answer is drained, the memory sees the offers of a piece and no
others. -/
theorem Effect.offers_eq {m m' : Assembly (Recorded σ)} {e : Event} (h : Effect m m' e)
    (hanswer : e.drained = []) : m'.surroundings.offers =
      m.surroundings.offers ++ e.exchanges.filter Exchange.isOffer := by
  -- what makes no offer adds none
  have hnone : ∀ {m' : Assembly (Recorded σ)}, m'.surroundings.offers = m.surroundings.offers →
      m'.surroundings.offers = m.surroundings.offers ++ [] :=
      fun h => h.trans (List.append_nil _).symm
  cases h with
  | submitted _ _ hs => exact hnone (congrArg Recorded.offers hs)
  | received _ hs => exact hnone (congrArg Recorded.offers hs)
  | resumed _ hs => exact hnone (congrArg Recorded.offers hs)
  | performed _ hs =>
    obtain ⟨s, l, hnotified, hl, hs, -⟩ := hs
    refine hnone ?_
    rw [hs, Recorded.offers_of_other rfl (contacts_accessFunctional hl), hnotified.offers_eq]
  | rejected h => exact hnone (congrArg (·.surroundings.offers) h)
  | elapsed _ hs =>
    refine hnone ?_
    unfold Recorded.offers Recorded.history
    rw [hs]
  | answered _ _ _ _ => cases hanswer
  | settled _ hs =>
    refine hnone ?_
    rcases hs with hs | hs
    · rw [hs]
    · rw [hs]
      exact Recorded.offers_of_other (c := .responseRetried) rfl rfl
  | swept _ _ hs => exact hnone (congrArg Recorded.offers hs)
  | checked _ hs => exact hnone (congrArg Recorded.offers hs)
  | turned _ hok h =>
    cases h with
    | idle _ => exact hnone rfl
    | parked _ _ _ _ hs => exact hnone (congrArg Recorded.offers hs)
    | spilled hcleared _ _ _ => exact hnone (congrArg Recorded.offers hcleared.surroundings)
    | served hcleared _ hserved =>
      rw [← hcleared.surroundings] at hnone ⊢
      cases hserved with
      | broken a => exact absurd rfl (hok a)
      | duplicate _ h _ => exact hnone (congrArg (·.surroundings.offers) h)
      | refused h =>
        obtain ⟨notices, haccept⟩ := h.refused
        exact Recorded.offers_of_contact (contacts_accept haccept).1
      | sent h _ =>
        obtain ⟨s, notices, haccept, hnotified⟩ := h.accepted
        rw [hnotified.offers_eq]
        exact Recorded.offers_of_contact (contacts_accept haccept).1
      | folded h _ => exact hnone h.surroundings.offers_eq

theorem Moment.Genuine.offers_eq {x : Moment σ} (hx : x.Genuine) (hok : x.event.isBroken = false) :
    x.after.surroundings.offers =
      x.before.surroundings.offers ++ x.event.exchanges.filter Exchange.isOffer := by
  by_cases hanswer : x.event.drained = []
  · exact (effect_of_genuine hx hok).offers_eq hanswer
  · cases hx with
    | answered m now response port _ =>
      refine Eq.trans ?_ (List.append_nil _).symm
      exact Assembly.eq_of_answer Recorded.offers
        (fun lane completion s => Recorded.offers_of_other
          (c := .delivered lane completion _) rfl rfl)
        _ now response
    | _ => exact absurd rfl hanswer

/-- **The memory saw the offers of a run**, and no others. -/
theorem Linked.offers_eq {m : Assembly (Recorded σ)} {ms : List (Moment σ)} (h : Linked m ms)
    (hok : Unbroken ms) : (endOf m ms).surroundings.offers =
      m.surroundings.offers ++ (exchangesIn (ms.map (·.event))).filter Exchange.isOffer := by
  refine Linked.induct (P := fun pre m' => m'.surroundings.offers =
      m.surroundings.offers ++ (exchangesIn (pre.map (·.event))).filter Exchange.isOffer)
    (R := fun _ => True) (List.append_nil _).symm ?_ h hok fun _ _ => trivial
  intro pre x hpre hx hokx _
  rw [hx.offers_eq hokx, hpre, List.map_append, exchangesIn_append, List.filter_append,
    List.append_assoc, List.map_singleton, exchangesIn_cons]
  unfold exchangesIn
  rw [List.flatMap_nil, List.append_nil]

/-! ### What a request asks for -/

/-- What a request asks for on behalf of the head of a port: a load fetches the
line of its address, and all else goes as it is. -/
structure BackendRequest.Serves (r : BackendRequest) (port : Nat) (txn : Transaction)
    (lineSize : Nat) : Prop where
  /-- It is made on behalf of the port. -/
  origin : r.origin = port
  /-- It does what the transaction does. -/
  cmd : r.cmd = txn.cmd
  /-- A load fetches the whole line, which is aligned, and has no data. -/
  line : r.cmd = .read → lineSize ∣ r.addr ∧ r.addr = blockBase txn.addr lineSize ∧
    r.size = lineSize ∧ r.data = []
  /-- Any other request goes as it is. -/
  verbatim : r.cmd ≠ .read → r.addr = txn.addr ∧ r.size = txn.size ∧ r.data = txn.data

omit [Requestors σ] [Backend σ] in
theorem Coalesced.FormedFrom.serves {request : Coalesced} {a : Allocator} {now granted : Nat}
    {head : Transaction} (h : request.FormedFrom a now granted head)
    (hline : isPowerOfTwo a.config.lineSize = true) (id : Nat) :
    (request.toBackend id a.config.lineSize).Serves granted head a.config.lineSize := by
  have hcmd : (request.toBackend id a.config.lineSize).cmd = head.cmd := by
    rw [Coalesced.cmd_toBackend, h.cmd_eq]
  have horigin : (request.toBackend id a.config.lineSize).origin = granted := by
    unfold Coalesced.toBackend
    split
    · exact congrArg Origin.port h.first
    · exact congrArg Origin.port h.first
  refine ⟨horigin, hcmd, fun hread => ?_, fun hother => ?_⟩
  · rw [Coalesced.cmd_toBackend] at hread
    unfold Coalesced.toBackend
    rw [if_pos ((Command.isCoalescable_iff _).mpr hread)]
    have hbase : request.line = blockBase head.addr a.config.lineSize := h.line
    refine ⟨?_, hbase, rfl, rfl⟩
    rw [hbase, blockBase_eq_mul hline]
    exact Nat.dvd_mul_right _ _
  · rw [Coalesced.cmd_toBackend] at hother
    unfold Coalesced.toBackend
    rw [if_neg (mt (Command.isCoalescable_iff _).mp hother), h.first]
    exact ⟨rfl, rfl, rfl⟩

/-- **Every offer serves the visible head of the port that was granted.** -/
theorem Effect.serves {m m' : Assembly (Recorded σ)} {e : Event} (h : Effect m m' e)
    (hline : isPowerOfTwo m.allocator.config.lineSize = true) {request : BackendRequest}
    {accepted : Bool} (hoffer : .offered request accepted ∈ e.exchanges) :
    ∃ now granted head, e.now? = some now ∧ m.allocator.grant? now = some (granted, head) ∧
      request.Serves granted head m.allocator.config.lineSize := by
  cases h with
  | @turned now result _ hok h =>
    cases h with
    | @served m₁ _ granted head formed result hcleared hformed hserved =>
      have hconfig := hcleared.config_eq
      refine ⟨now, granted, head, rfl, hcleared.grant, ?_⟩
      cases hserved with
      | broken a => exact absurd rfl (hok a)
      | refused h =>
        cases List.mem_singleton.mp hoffer
        rw [h.sent_eq, hconfig]
        exact hformed.serves hline _
      | sent h _ =>
        cases List.mem_singleton.mp hoffer
        rw [h.sent_eq, hconfig]
        exact hformed.serves hline _
      | _ => cases hoffer
    | _ => cases hoffer
  | resumed _ _ => cases List.mem_singleton.mp hoffer
  | _ => cases hoffer

/-! ### What a cycle may offer -/

/-- What one cycle may offer: no more acceptances than its budget, and nothing
after a refusal. -/
structure Rationed (budget : Nat) (xs : List Exchange) : Prop where
  /-- The memory does not call. -/
  offers : ∀ x ∈ xs, x.isOffer = true
  /-- Acceptances spend the budget. -/
  accepted : acceptances xs ≤ budget
  /-- A refusal is the last offer. -/
  last : ∀ earlier request later, xs = earlier ++ .offered request false :: later → later = []

namespace Rationed

omit [Requestors σ] [Backend σ] in
theorem nil (budget : Nat) : Rationed budget [] := by
  refine ⟨List.forall_mem_nil _, Nat.zero_le _, fun earlier request later h => ?_⟩
  cases earlier <;> cases h

omit [Requestors σ] [Backend σ] in
theorem cons {budget : Nat} {xs : List Exchange} (h : Rationed budget xs)
    (request : BackendRequest) :
    Rationed (budget + 1) (.offered request true :: xs) := by
  refine ⟨List.forall_mem_cons.mpr ⟨rfl, h.offers⟩, ?_, fun earlier refused later heq => ?_⟩
  · have haccepted := h.accepted
    unfold acceptances at haccepted ⊢
    rw [List.countP_cons_of_pos rfl]
    exact Nat.succ_le_succ haccepted
  · cases earlier with
    | nil => cases heq
    | cons x rest =>
      rw [List.cons_append] at heq
      exact h.last rest refused later (List.cons.inj heq).2

omit [Requestors σ] [Backend σ] in
theorem refused (budget : Nat) (request : BackendRequest) :
    Rationed budget [.offered request false] := by
  refine ⟨List.forall_mem_singleton.mpr rfl, Nat.zero_le _, fun earlier refused later heq => ?_⟩
  cases earlier with
  | nil =>
    cases heq
    rfl
  | cons x rest =>
    cases rest <;> cases heq

end Rationed

namespace Assembly

/-- A cycle ends where its pieces end. -/
theorem left_tick (m : Assembly (Recorded σ)) (now : Nat) :
    (m.tick now).left = endOf m (m.tickMoments now) := by
  rw [tick_moments]
  unfold outcomeOf
  split <;> rfl

/-- Turns keep to what is left of the budget. -/
theorem rationed_turnMoments (now issued : Nat) (m : Assembly (Recorded σ)) :
    Rationed (m.allocator.config.maxIssuePerCycle - issued)
      (exchangesIn ((m.turnMoments now issued).map (·.event))) := by
  fun_induction turnMoments now issued m with
  | case1 issued m _ => exact .nil _
  | case2 issued m _ e m' _ => exact .nil _
  | case3 issued m hopen turn m' hturn ih =>
    simp only [Bool.or_eq_true, decide_eq_true_eq, not_or, Bool.not_eq_true, Nat.not_le] at hopen
    have hturned := turned_of_issueTurn hopen.1 hturn
    have hconfig : m'.allocator.config = m.allocator.config :=
      (booked_turned hturned (ok_ne_assertion turn)).config_eq
    rw [List.map_cons, exchangesIn_cons]
    cases turn with
    | idle => exact .nil _
    | refused granted sent => exact .refused _ sent
    | parked granted =>
      have hrest := ih rfl
      rw [hconfig] at hrest
      exact hrest
    | folded granted id request =>
      have hrest := ih rfl
      rw [hconfig] at hrest
      exact hrest
    | sent granted sent request =>
      have hrest := (ih rfl).cons sent
      rw [hconfig, Turn.cost, show m.allocator.config.maxIssuePerCycle - (issued + 1) + 1 =
        m.allocator.config.maxIssuePerCycle - issued by omega] at hrest
      exact hrest

theorem exchanges_responseMoments {now : Nat} {m : Assembly (Recorded σ)} {x : Moment σ}
    (h : x ∈ m.responseMoments now) : x.event.exchanges = [] := by
  unfold responseMoments at h
  rcases mem_follow h with h | h
  · obtain ⟨response, result, hevent⟩ := answered_of_drainMoments h
    rw [hevent]
    rfl
  · split at h
    · cases h
    · rw [List.mem_singleton.mp h]
      rfl

/-- A cycle drains answers and sweeps the locks, takes turns, and checks
progress. -/
theorem tickMoments_split (m : Assembly (Recorded σ)) (now : Nat) : ∃ front turns back,
    m.tickMoments now = front ++ (turns ++ back) ∧ (∀ x ∈ front, x.event.exchanges = []) ∧
      (turns = [] ∨ ∃ m₁ : Assembly (Recorded σ),
        m₁.allocator.config = m.allocator.config ∧
        turns = m₁.turnMoments now 0) ∧
      ∀ x ∈ back, ∃ m₂ : Assembly (Recorded σ), x = m₂.checkMoment now := by
  have hlinked := m.linked_tickMoments now
  unfold tickMoments at hlinked ⊢
  split
  · -- the cycle cannot begin
    refine ⟨_, [], [], (List.append_nil _).symm, ?_, .inl rfl, List.forall_mem_nil _⟩
    exact List.forall_mem_singleton.mpr rfl
  · rename_i hlanes
    rw [if_neg hlanes] at hlinked
    unfold follow at hlinked ⊢
    cases hresponses : failureIn (m.responseMoments now) with
    | some e =>
      exact ⟨_, [], [], (List.append_nil _).symm,
        fun x hx => exchanges_responseMoments hx, .inl rfl, List.forall_mem_nil _⟩
    | none =>
      rw [hresponses] at hlinked
      have hkept := hlinked.split.1.kept (unbroken_of_failureIn hresponses)
      generalize endOf m (m.responseMoments now) = m₁ at hkept hlinked
      have hconfig : (m₁.sweepLocks now).allocator.config = m.allocator.config := by
        have hswept := (effect_of_genuine (.swept m₁ now) rfl).booked.config_eq
        exact hswept.trans hkept.config_eq
      have hfront : ∀ x ∈ m.responseMoments now ++
          [⟨m₁, .swept now, m₁.sweepLocks now⟩],
            x.event.exchanges = [] := by
        intro x hx
        rcases List.mem_append.mp hx with hx | hx
        · exact exchanges_responseMoments hx
        · rw [List.mem_singleton.mp hx]
          rfl
      simp only
      cases hissue : failureIn (m₁.issueMoments now) with
      | some e =>
        refine ⟨_, (m₁.sweepLocks now).turnMoments now 0, [], ?_, hfront,
          .inr ⟨_, hconfig, rfl⟩, List.forall_mem_nil _⟩
        rw [List.append_nil, List.append_assoc]
        rfl
      | none =>
        refine ⟨_, (m₁.sweepLocks now).turnMoments now 0,
          [(endOf m₁ (m₁.issueMoments now)).checkMoment now], ?_, hfront,
          .inr ⟨_, hconfig, rfl⟩, List.forall_mem_singleton.mpr ⟨_, rfl⟩⟩
        rw [List.append_assoc]
        rfl

theorem rationed_tickMoments (m : Assembly (Recorded σ)) (now : Nat) :
    Rationed m.allocator.config.maxIssuePerCycle
      (exchangesIn ((m.tickMoments now).map (·.event))) := by
  obtain ⟨front, turns, back, hsplit, hfront, hturns, hback⟩ := m.tickMoments_split now
  have hnone : ∀ ms : List (Moment σ), (∀ x ∈ ms, x.event.exchanges = []) →
      exchangesIn (ms.map (·.event)) = [] := by
    intro ms h
    unfold exchangesIn
    rw [List.flatMap_map]
    exact List.flatMap_eq_nil_iff.mpr h
  have hback : ∀ x ∈ back, x.event.exchanges = [] := by
    intro x hx
    obtain ⟨m₂, rfl⟩ := hback x hx
    rfl
  rw [hsplit, List.map_append, List.map_append, exchangesIn_append, exchangesIn_append,
    hnone front hfront, hnone back hback, List.nil_append, List.append_nil]
  rcases hturns with rfl | ⟨m₁, hconfig, rfl⟩
  · exact .nil _
  · rw [← hconfig]
    exact m₁.rationed_turnMoments now 0

/-- **A cycle keeps to its budget**, and a refusal is the last offer that it
makes. -/
theorem rationed_tick (m : Assembly (Recorded σ)) (now : Nat)
    (hok : Unbroken (m.tickMoments now)) :
    ∃ xs, (m.tick now).left.surroundings.offers = m.surroundings.offers ++ xs ∧
      Rationed m.allocator.config.maxIssuePerCycle xs := by
  have hrationed := m.rationed_tickMoments now
  refine ⟨_, ?_, hrationed⟩
  rw [m.left_tick now, (m.linked_tickMoments now).offers_eq hok,
    List.filter_eq_self.mpr hrationed.offers]

end Assembly

/-! ### Runs -/

/-- **The protocol of offers.**  Over a run:

* the memory sees the offers that the run exchanges, and no others;
* every offered request has the number of the requests that were accepted before
  it, so that accepted requests are numbered from zero on and a refused number
  is offered again;
* after a refusal nothing is offered until the memory has called;
* a cycle has at most as many acceptances as its budget, and a refusal is its
  last offer;
* every offer serves the visible head of the port that was granted: a load
  fetches the aligned line of its address, and any other request goes as it
  is. -/
theorem offer_protocol {config : AllocatorConfig} {a : Allocator}
    (hnew : Allocator.new config = .ok a) (s : σ) (j : Journal) (calls : List (Call σ))
    {ms : List (Moment σ)} (hrun : ms <+: run calls ⟨a, .start s, j⟩) (hok : Unbroken ms) :
    (endOf ⟨a, .start s, j⟩ ms).surroundings.offers =
      (exchangesIn (ms.map (·.event))).filter Exchange.isOffer ∧
    (∀ earlier request accepted later,
      exchangesIn (ms.map (·.event)) = earlier ++ .offered request accepted :: later →
      request.id = acceptances earlier) ∧
    (∀ earlier refused mid request accepted later, exchangesIn (ms.map (·.event)) =
        earlier ++ .offered refused false :: (mid ++ .offered request accepted :: later) →
      .resumed ∈ mid) ∧
    (∀ now, Unbroken ((endOf ⟨a, .start s, j⟩ ms).tickMoments now) →
      ∃ xs, ((endOf ⟨a, .start s, j⟩ ms).tick now).left.surroundings.offers =
          (endOf ⟨a, .start s, j⟩ ms).surroundings.offers ++ xs ∧
        acceptances xs ≤ config.maxIssuePerCycle ∧
        ∀ earlier request later,
          xs = earlier ++ .offered request false :: later → later = []) ∧
    ∀ x ∈ ms, ∀ request accepted, .offered request accepted ∈ x.event.exchanges →
      ∃ now granted head, x.event.now? = some now ∧
        x.before.allocator.grant? now = some (granted, head) ∧
        request.Serves granted head config.lineSize := by
  have hlinked := (linked_run calls ⟨a, .start s, j⟩).initial hrun
  have helapsed : ∀ x ∈ ms, x.event = .elapsed → x.after.allocator = x.before.allocator :=
    fun x hx => allocator_elapsed (hrun.subset hx)
  obtain ⟨hcheck, hinit⟩ := Allocator.eq_of_new hnew
  -- the settings never change
  have hconfig : ∀ pre, Linked ⟨a, .start s, j⟩ pre → Unbroken pre →
      (endOf ⟨a, .start s, j⟩ pre).allocator.config = config := by
    intro pre hpre hokpre
    have hkept := (hpre.kept hokpre).config_eq
    rw [hinit] at hkept ⊢
    exact hkept
  have hexchanging := hlinked.exchanging hok helapsed (exchanging_new hnew)
  refine ⟨hlinked.offers_eq hok, ?_, ?_, ?_, ?_⟩
  · intro earlier request accepted later heq
    exact (hexchanging.orderly earlier request accepted later heq).1
  · intro earlier refused mid request accepted later heq
    rw [← List.cons_append, ← List.append_assoc] at heq
    exact resumed_mem_of_owesCall (hexchanging.orderly _ request accepted later heq).2
  · intro now hoknow
    obtain ⟨xs, hoffers, hrationed⟩ := Assembly.rationed_tick _ now hoknow
    rw [hconfig ms hlinked hok] at hrationed
    exact ⟨xs, hoffers, hrationed.accepted, hrationed.last⟩
  · intro x hx request accepted hoffer
    obtain ⟨pre, post, heq⟩ := List.append_of_mem hx
    rw [heq] at hlinked
    obtain ⟨hpre, hokpre, hbefore, hgenuine, -⟩ := hlinked.split_cons
    have hline := hconfig pre hpre hokpre
    rw [← hbefore] at hline
    have hserves := (effect_of_genuine hgenuine (hok x hx)).serves
      (hline ▸ AllocatorConfig.isPowerOfTwo_of_check hcheck) hoffer
    rw [hline] at hserves
    exact hserves

end Genuine

/-- A store and a load of different lanes, to a memory that takes one request
and refuses the other twice. -/
def refusedTwice : List (Call (Lanes × EchoMemory)) :=
  [.submit 0 0 (.store .write 1 64 [1, 2, 3, 4]), .submit 0 1 (.load .read 2 132 4),
    .elapse fun s => (s.1, s.2.setBudget 1), .tick 0, .backendRetry, .tick 1,
    .elapse fun s => (s.1, s.2.reopen), .backendRetry, .tick 2]

/-- Where the two lanes begin. -/
def refusedTwiceStart : Assembly (Recorded (Lanes × EchoMemory)) :=
  ⟨.ofConfig {
      numPorts := 2, requestLatency := 0, maxIssuePerCycle := 2, enableCoalescing := true },
    .start (Lanes.plain 2, EchoMemory.new false), .start .warn⟩

/-- The load is offered three times under one number. -/
theorem offer_protocol_refusedTwice :
    exchangesIn ((run refusedTwice refusedTwiceStart).map (·.event)) =
        [.offered ⟨0, 0, .write, 64, 4, [1, 2, 3, 4]⟩ true,
          .offered ⟨1, 1, .read, 128, 64, []⟩ false,
          .resumed, .offered ⟨1, 1, .read, 128, 64, []⟩ false, .resumed,
          .offered ⟨1, 1, .read, 128, 64, []⟩ true] ∧
      (endOf refusedTwiceStart (run refusedTwice refusedTwiceStart)).surroundings.offers =
        [.offered ⟨0, 0, .write, 64, 4, [1, 2, 3, 4]⟩ true,
          .offered ⟨1, 1, .read, 128, 64, []⟩ false,
          .offered ⟨1, 1, .read, 128, 64, []⟩ false,
          .offered ⟨1, 1, .read, 128, 64, []⟩ true] := by
  have hexchanges : exchangesIn ((run refusedTwice refusedTwiceStart).map (·.event)) =
      [.offered ⟨0, 0, .write, 64, 4, [1, 2, 3, 4]⟩ true,
        .offered ⟨1, 1, .read, 128, 64, []⟩ false,
        .resumed, .offered ⟨1, 1, .read, 128, 64, []⟩ false, .resumed,
        .offered ⟨1, 1, .read, 128, 64, []⟩ true] := by decide +kernel
  have hnew : Allocator.new refusedTwiceStart.allocator.config =
      .ok refusedTwiceStart.allocator := by rfl
  obtain ⟨hoffers, -⟩ :=
    offer_protocol hnew (Lanes.plain 2, EchoMemory.new false) (.start .warn)
    refusedTwice List.prefix_rfl (by decide +kernel)
  exact ⟨hexchanges, hoffers.trans (congrArg (List.filter Exchange.isOffer) hexchanges)⟩

end MemPort
