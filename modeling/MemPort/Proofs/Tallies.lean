import MemPort.Proofs.Conservation

/-!
# Counters and what they count

Every counter of an allocator tells a number that can be read off a run: how
many transactions were accepted, how many left their ports, and so on.  An event
adds to the counters exactly what happened in it (`Counted`), so over a run the
counters tell the events, as far as a word can (`Tallied`), and the events in
turn account for what is queued and in flight.

## Main definitions

* `Event.refused`, `refusedIn` — the submissions that were refused.
* `Event.failsTick`, `TicksPass` — a cycle fails, and no cycle of a run fails.
* `Tally`, `Counters.Tells` — what is counted without bounds, and as far as a
  word can tell.
* `Counted` — what an event does to the counters.
* `Tallied` — the counters tell the events.

## Main results

* `Assembly.counted_turned`, `counted_of_genuine` — the steps count what they
  do.
* `Tallied.step` — counters that tell the events so far tell one more.

## References

`SPEC_FULL.md`, section 10.5: the counters.
-/

namespace MemPort

/-! ### Submissions that are refused, and cycles that fail -/

/-- The submission that was refused. -/
def Event.refused : Event → List Origin
  | submitted _ port txn (.ok false) => [⟨port, txn⟩]
  | _ => []

/-- The submissions that were refused, in order. -/
def refusedIn (es : List Event) : List Origin := es.flatMap Event.refused

/-- Whether the event is the failure of a cycle: any failure but that of a
submission or of an access at once. -/
def Event.failsTick : Event → Bool
  | submitted .. | performed .. => false
  | e => e.failure?.isSome

/-- No cycle of a run failed. -/
def TicksPass {σ : Type} (ms : List (Moment σ)) : Prop := ∀ x ∈ ms, x.event.failsTick = false

instance {σ : Type} (ms : List (Moment σ)) : Decidable (TicksPass ms) :=
  inferInstanceAs (Decidable (∀ x ∈ ms, x.event.failsTick = false))

/-- No piece of a cycle that goes through fails. -/
theorem ticksPass_iff_failureIn {σ : Type} [Requestors σ] [Backend σ] {now : Nat}
    {m : Assembly (Recorded σ)} :
    TicksPass (m.tickMoments now) ↔ failureIn (m.tickMoments now) = none := by
  unfold TicksPass failureIn
  rw [List.findSome?_eq_none_iff]
  refine forall₂_congr fun x hx => ?_
  have hpiece := Assembly.ofTick_tickMoments hx
  generalize x.event = e at hpiece
  cases hpiece <;> simp [Event.failsTick]

theorem refusedIn_append (es es' : List Event) :
    refusedIn (es ++ es') = refusedIn es ++ refusedIn es' := List.flatMap_append

theorem refusedIn_singleton (e : Event) : refusedIn [e] = e.refused := List.flatMap_singleton ..

/-! ### Saturating sums -/

theorem satAdd_min (n k : Nat) : satAdd (min n maxWord) k = min (n + k) maxWord := by
  unfold satAdd
  omega

/-- What is counted of transactions and requests, without bounds. -/
structure Tally where
  /-- Transactions that were accepted. -/
  accepted : Nat
  /-- Submissions that were refused. -/
  refused : Nat
  /-- Transactions that left their ports. -/
  retired : Nat
  /-- Transactions that were completed. -/
  delivered : Nat
  /-- Requests that went out. -/
  sent : Nat
  /-- Answers that were drained. -/
  drained : Nat

/-- The counters tell a tally, as far as a word can. -/
structure Counters.Tells (c : Counters) (t : Tally) : Prop where
  /-- Accepted transactions are counted. -/
  accepted : c.accepted = min t.accepted maxWord
  /-- Refusals are counted. -/
  refused : c.requestorRejects = min t.refused maxWord
  /-- Transactions are counted when they leave their ports. -/
  retired : c.requestCount = min t.retired maxWord
  /-- Completions are counted. -/
  delivered : c.responsesDelivered = min t.delivered maxWord
  /-- Requests that go out are counted. -/
  sent : c.backendSends = min t.sent maxWord
  /-- Answers are counted when they are drained. -/
  drained : c.responsesDrained = min t.drained maxWord

namespace Counters

/-- Waits touch two counters only. -/
theorem recordWaits_eq (waits : List Nat) (c : Counters) :
    c.recordWaits waits = { c with
      requestCount := (c.recordWaits waits).requestCount
      waitLatency := (c.recordWaits waits).waitLatency } := by
  induction waits generalizing c with
  | nil => rfl
  | cons wait rest ih => exact ih (c.recordWait wait)

theorem outstanding_recordWaits (waits : List Nat) (c : Counters) :
    (c.recordWaits waits).outstanding = c.outstanding := by
  rw [recordWaits_eq]

theorem outstanding_recordDeliveries (n : Nat) (c : Counters) :
    (c.recordDeliveries n).outstanding = c.outstanding := by
  induction n generalizing c with
  | zero => rfl
  | succ n ih => exact ih c.recordDelivery

theorem waitLatency_recordWaits {c : Counters} {n : Nat} (h : c.waitLatency = min n maxWord)
    (waits : List Nat) : (c.recordWaits waits).waitLatency = min (n + total waits) maxWord := by
  induction waits generalizing c n with
  | nil => exact h
  | cons wait rest ih =>
    have hnext : (c.recordWait wait).waitLatency = min (n + wait) maxWord := by
      show satAdd c.waitLatency wait = _
      rw [h, satAdd_min]
    rw [recordWaits_cons, ih hnext, total, Nat.add_assoc]

namespace Tells

variable {c : Counters} {t : Tally}

/-- A counter that counts one more. -/
theorem one_more {count n : Nat} (h : count = min n maxWord) :
    satAdd count 1 = min (n + 1) maxWord := by
  rw [h, satAdd_min]

theorem recordAccept (h : c.Tells t) : c.recordAccept.Tells { t with accepted := t.accepted + 1 } :=
  { h with accepted := one_more h.accepted }

theorem recordRequestorReject (h : c.Tells t) :
    c.recordRequestorReject.Tells { t with refused := t.refused + 1 } :=
  { h with refused := one_more h.refused }

theorem recordSend (h : c.Tells t) : c.recordSend.Tells { t with sent := t.sent + 1 } :=
  { h with sent := one_more h.sent }

theorem recordDrain (h : c.Tells t) : c.recordDrain.Tells { t with drained := t.drained + 1 } :=
  { h with drained := one_more h.drained }

theorem recordWaits (h : c.Tells t) (waits : List Nat) :
    (c.recordWaits waits).Tells { t with retired := t.retired + waits.length } := by
  induction waits generalizing c t with
  | nil => exact h
  | cons wait rest ih =>
    have hone : (c.recordWait wait).Tells { t with retired := t.retired + 1 } :=
      { h with retired := one_more h.retired }
    have hrest := ih hone
    rw [Nat.add_assoc, Nat.add_comm 1] at hrest
    exact hrest

theorem recordDeliveries (h : c.Tells t) (n : Nat) :
    (c.recordDeliveries n).Tells { t with delivered := t.delivered + n } := by
  induction n generalizing c t with
  | zero => exact h
  | succ n ih =>
    have hone : c.recordDelivery.Tells { t with delivered := t.delivered + 1 } :=
      { h with delivered := one_more h.delivered }
    have hrest := ih hone
    rw [Nat.add_assoc, Nat.add_comm 1] at hrest
    exact hrest

/-- What is counted of a request that goes out. -/
theorem recordRequest (h : c.Tells t) (waits : List Nat) (folded : Nat) :
    (c.recordRequest waits folded).Tells
      { t with sent := t.sent + 1, retired := t.retired + waits.length } :=
  { h.recordSend.recordWaits waits with }

/-- What is counted of heads that join a request in flight. -/
theorem recordFold (h : c.Tells t) (waits : List Nat) (folded : Nat) :
    (c.recordFold waits folded).Tells { t with retired := t.retired + waits.length } := by
  have hfolded : ((c.recordSpaceCoalesced folded).recordTimeCoalesced (folded + 1)).Tells t :=
    { h with }
  exact hfolded.recordWaits waits

/-- What is counted of an answer that is handed out. -/
theorem recordAnswer (h : c.Tells t) (n : Nat) :
    (c.recordAnswer n).Tells { t with delivered := t.delivered + n, drained := t.drained + 1 } :=
  (h.recordDeliveries n).recordDrain

/-- Only the counters of traffic matter. -/
theorem of_traffic {c' : Counters} (h : c.traffic.Tells t) (hc : c'.traffic = c.traffic) :
    c'.Tells t := by
  rw [← hc] at h
  exact { h with }

theorem traffic (h : c.Tells t) : c.traffic.Tells t := { h with }

end Tells

end Counters

/-! ### What an event counts -/

/-- What an event that fails no cycle does to the counters. -/
inductive Counted (a a' : Allocator) : Event → Prop
  /-- An accepted transaction is counted. -/
  | accepted {now port : Nat} {txn : Transaction}
      (h : a'.stats.traffic = a.stats.traffic.recordAccept) :
      Counted a a' (.submitted now port txn (.ok true))
  /-- A refusal is counted. -/
  | refused {now port : Nat} {txn : Transaction}
      (h : a'.stats.traffic = a.stats.traffic.recordRequestorReject) :
      Counted a a' (.submitted now port txn (.ok false))
  /-- A request that goes out is counted, with the waits of the heads behind it. -/
  | sent {now granted : Nat} {sent : BackendRequest} {request : Coalesced}
      (h : a'.stats.traffic = a.stats.traffic.recordRequest
        (request.origins.map fun o => a.waitedAt now o.port) request.folded.length) :
      Counted a a' (.turned now (.ok (.sent granted sent request)))
  /-- Heads that join a load in flight are counted, with their waits. -/
  | folded {now granted id : Nat} {request : Coalesced}
      (h : a'.stats.traffic = a.stats.traffic.recordFold
        (request.origins.map fun o => a.waitedAt now o.port) request.folded.length) :
      Counted a a' (.turned now (.ok (.folded granted id request)))
  /-- An answer is counted, with its completions. -/
  | answered {now : Nat} {response : BackendResponse} {request : Coalesced}
      (hget : a.outstanding.get? response.id = some request)
      (h : a'.stats.traffic = a.stats.traffic.recordAnswer request.size) :
      Counted a a' (.answered now response (.ok ()))
  /-- Nothing else is counted. -/
  | quiet {e : Event} (hquiet : e.isQuiet = true) (hrefused : e.refused = [])
      (h : a'.stats.traffic = a.stats.traffic) : Counted a a' e

/-- What a submission counts. -/
theorem Allocator.counted_submit {a : Allocator} {now port : Nat} {txn : Transaction}
    {l : Logged (Bool × Allocator)} (h : a.submit now port txn = .ok l) :
    Counted a l.value.2 (.submitted now port txn (.ok l.value.1)) := by
  obtain ⟨p, -, hl⟩ := exists_of_submit h
  rw [hl]
  cases (p.push now txn).value.1 with
  | true => exact .accepted rfl
  | false => exact .refused rfl

theorem Relays.traffic {a b : Allocator} (h : Relays a b) : b.stats.traffic = a.stats.traffic := by
  obtain ⟨_, _, rfl⟩ := h.frame
  rfl

namespace Assembly

variable {σ : Type} [Requestors σ] [Backend σ]

omit [Backend σ] in
/-- Completions that are all taken are counted. -/
theorem stats_deliverAll {m m' : Assembly σ} {cs : List (Nat × Response)}
    (h : m.deliverAll cs = .ok () m') :
    m'.allocator = { m.allocator with stats := m.allocator.stats.recordDeliveries cs.length } := by
  induction cs generalizing m with
  | nil =>
    cases h
    rfl
  | cons c rest ih =>
    obtain ⟨m₁, hd, hrest⟩ := deliverAll_cons_eq_ok h
    rw [ih hrest, allocator_count, allocator_settle hd]
    rfl

omit [Backend σ] in
/-- **Handing out an answer counts it, with its completions**, and its request
is no longer in flight. -/
theorem allocator_answer {m m' : Assembly σ} {now : Nat} {response : BackendResponse}
    (h : m.answer now response = .ok () m') :
    ∃ request, m.allocator.outstanding.get? response.id = some request ∧
      m'.allocator = { m.allocator with
        stats := m.allocator.stats.recordAnswer request.size
        outstanding := m.allocator.outstanding.erase response.id
        lastActive := now } := by
  obtain ⟨request, completions, m₁, hrequest, hfan, hd, rfl⟩ := answer_eq_ok h
  have hlength : completions.length = request.size :=
    (Coalesced.completes_fanOut hfan).length_eq.symm
  refine ⟨request, hrequest, ?_⟩
  rw [allocator_update, allocator_count, stats_deliverAll hd, hlength]
  rfl

omit [Backend σ] in
theorem counted_answer {m m' : Assembly σ} {now : Nat} {response : BackendResponse}
    {port : BackendPort}
    (h : (m.update fun a => { a with backendPort := port }).answer now response = .ok () m') :
    Counted m.allocator m'.allocator (.answered now response (.ok ())) := by
  obtain ⟨request, hget, ha⟩ := allocator_answer h
  refine .answered hget ?_
  rw [ha]
  unfold Counters.recordAnswer
  rw [← Counters.traffic_recordDeliveries]
  rfl

omit [Requestors σ] [Backend σ] in
/-- The check of a lock counts no traffic, and moves no transaction. -/
theorem Cleared.traffic {m m' : Assembly σ} {now granted : Nat} {head : Transaction}
    (h : Cleared m m' now granted head) :
    m'.allocator.stats.traffic = m.allocator.stats.traffic ∧
      m'.allocator.waitedAt = m.allocator.waitedAt := by
  constructor
  · rw [h.counted]
    split <;> rfl
  -- unparking touches the flag of a port, never the tick its head became one
  · funext t port
    obtain ⟨c, table, ports, stats, -, -, hports, ha⟩ := h.allocator
    unfold Allocator.waitedAt
    rw [ha, hports]
    split
    · unfold Allocator.unparkAll
      rw [List.getElem?_map]
      cases m.allocator.ports[port]? <;> rfl
    · rfl

/-- **A turn counts what it does.** -/
theorem counted_turned {m m' : Assembly σ} {now : Nat} {turn : Turn}
    (h : Turned m now (.ok turn) m') :
    Counted m.allocator m'.allocator (.turned now (.ok turn)) := by
  cases h with
  | idle _ => exact .quiet rfl rfl rfl
  | parked _ _ _ _ _ hcounted =>
    refine .quiet rfl rfl ?_
    rw [hcounted]
    rfl
  -- only the offer counts traffic, and the checks left the waits alone
  | served hcleared _ hserved =>
    obtain ⟨htraffic, hwaited⟩ := hcleared.traffic
    cases hserved with
    | refused h =>
      refine .quiet rfl rfl ?_
      rw [h.counted, ← htraffic]
      rfl
    | sent h _ =>
      refine .sent ?_
      rw [h.counted, htraffic, hwaited]
    | folded h _ =>
      refine .folded ?_
      rw [h.counted, htraffic, hwaited]

theorem traffic_accessFunctional {m m' : Assembly σ} {now port : Nat} {txn : Transaction}
    {response : Response} (h : m.accessFunctional now port txn = .ok response m') :
    m'.allocator.stats.traffic = m.allocator.stats.traffic := by
  obtain ⟨-, m₁, l, htold, -, -, rfl⟩ := accessFunctional_eq_ok h
  have htraffic := traffic_broadcast? htold
  exact htraffic

end Assembly

section Genuine

variable {σ : Type} [Requestors σ] [Backend σ]

/-- **Every genuine piece counts what it does**, unless a contract is broken or
a cycle fails. -/
theorem counted_of_genuine {x : Moment σ} (h : x.Genuine) (hok : x.event.isBroken = false)
    (hpass : x.event.failsTick = false) :
    Counted x.before.allocator x.after.allocator x.event := by
  cases h with
  | submitted m now port txn =>
    obtain ⟨l, hsubmit, heq⟩ := Assembly.exists_of_submit (Event.ne_assertion hok rfl)
    rw [heq]
    exact Allocator.counted_submit hsubmit
  | received m now response =>
    exact .quiet rfl rfl (Relays.received now response .refl).traffic
  | resumed m => exact .quiet rfl rfl rfl
  | performed m now port txn =>
    refine .quiet rfl rfl ?_
    -- an access that fails without breaking was rejected at once
    cases haccess : m.accessFunctional now port txn with
    | ok response m' => exact Assembly.traffic_accessFunctional haccess
    | error e m' =>
      have heffect := effect_of_genuine (.performed m now port txn) hok
      rw [haccess] at heffect
      cases heffect with
      | rejected hsame => exact congrArg (fun m => m.allocator.stats.traffic) hsame
  | elapsed m a s j h => exact .quiet rfl rfl h.traffic
  | interrupted m now a => cases hok
  | answered m now response port h =>
    cases hanswer : (m.update fun a => { a with backendPort := port }).answer now response with
    | error e m' =>
      rw [hanswer] at hpass
      cases hpass
    | ok _ m' => exact Assembly.counted_answer hanswer
  | settled m now =>
    exact .quiet rfl rfl (by rw [m.allocator_settleResponses])
  | swept m now => exact .quiet rfl rfl (m.traffic_sweepLocks now)
  | turned m now h =>
    cases hturn : m.issueTurn now with
    | error e m' =>
      rw [hturn] at hpass
      cases hpass
    | ok turn m' => exact Assembly.counted_turned (Assembly.turned_of_issueTurn h hturn)
  | checked m now =>
    obtain ⟨⟨next, ha⟩, -⟩ := m.frame_checkProgress now
    refine .quiet rfl rfl ?_
    unfold Assembly.checkMoment
    simp only [ha]

end Genuine

/-! ### What is counted over a run -/

/-- The tally of some events, of which a number of transactions were completed. -/
def tallyOf (es : List Event) (delivered : Nat) : Tally where
  accepted := (acceptedIn es).length
  refused := (refusedIn es).length
  retired := (retiredIn es).length
  delivered := delivered
  sent := (sentIn es).length
  drained := (drainedIn es).length

theorem tallyOf_concat (es : List Event) (e : Event) (delivered : Nat) :
    tallyOf (es ++ [e]) delivered = {
      accepted := (acceptedIn es).length + e.accepted.length
      refused := (refusedIn es).length + e.refused.length
      retired := (retiredIn es).length + e.served.length
      delivered := delivered
      sent := (sentIn es).length + e.sent.length
      drained := (drainedIn es).length + e.drained.length } := by
  unfold tallyOf
  simp only [acceptedIn_append, acceptedIn_singleton, refusedIn_append, refusedIn_singleton,
    retiredIn_append, retiredIn_singleton, sentIn_append, sentIn_singleton, drainedIn_append,
    List.length_append, List.length_map]

/-- The counters of an allocator tell the events. -/
structure Tallied (es : List Event) (a : Allocator) : Prop where
  /-- What left its port is in flight or completed, and the counters tell how
  much was completed. -/
  counters : ∃ delivered, (retiredIn es).length = delivered + a.inFlight.length ∧
    a.stats.Tells (tallyOf es delivered)
  /-- What went out is in flight or was answered. -/
  flying : (sentIn es).length = (drainedIn es).length + a.outstanding.size
  /-- The requests in flight are counted, as long as a word can tell how many
  went out. -/
  outstanding : (sentIn es).length ≤ maxWord → a.stats.outstanding = a.outstanding.size

/-- The transactions that were accepted are those that left their ports, and
those that are queued. -/
theorem Kept.length_acceptedIn {config : AllocatorConfig} {a : Allocator} {es : List Event}
    (h : Kept (.empty config) es a.books) :
    (acceptedIn es).length = (retiredIn es).length + a.waiting := by
  have hperm : (acceptedIn es).Perm (retiredIn es ++ a.queued) := by
    refine Origin.perm_of_txnsOf fun port => ?_
    rw [Origin.txnsOf_append, Allocator.txnsOf_queued]
    exact .of_eq (h.fifo port).symm
  rw [hperm.length_eq, List.length_append, a.length_queued]

/-- At least one transaction leaves its port with every request that goes out. -/
theorem length_sentIn_le (es : List Event) : (sentIn es).length ≤ (retiredIn es).length := by
  -- one request answers for at least one retired head, its first origin
  have hone : ∀ e : Event, e.sent.length ≤ e.served.length := by
    intro e
    cases e with
    | turned now result =>
      cases result with
      | error _ => exact Nat.le_refl 0
      | ok turn =>
        cases turn with
        | sent granted request transactions =>
          unfold Event.sent Event.served Coalesced.origins
          rw [List.length_map, List.length_cons]
          exact Nat.succ_le_succ (Nat.zero_le _)
        | _ => exact Nat.zero_le _
    | _ => exact Nat.le_refl 0
  unfold retiredIn
  rw [List.length_map]
  induction es with
  | nil => exact Nat.le_refl 0
  | cons e rest ih =>
    have he := hone e
    unfold sentIn servedIn at ih ⊢
    rw [List.flatMap_cons, List.flatMap_cons, List.length_append, List.length_append]
    omega

/-- A request that goes out is one more in flight. -/
theorem Booked.size_eq {b b' : Books} {e : Event} (h : Booked b e b') (hanswer : e.drained = []) :
    b'.outstanding.size = b.outstanding.size + e.sent.length := by
  cases h with
  | accepted => rfl
  | sent hfresh _ _ => exact AscMap.size_insert_of_fresh hfresh _
  | folded hpending _ _ _ => exact AscMap.size_insert_of_get? hpending _
  | answered => cases hanswer
  | quiet hquiet =>
    rw [(Event.of_isQuiet hquiet).2.2.1]
    rfl

namespace Tallied

variable {es : List Event} {a a' : Allocator} {e : Event}

/-- Only the books and the counters of traffic matter. -/
theorem congr (h : Tallied es a) (hbooks : a'.books = a.books)
    (htraffic : a'.stats.traffic = a.stats.traffic) : Tallied es a' := by
  have hout : a'.outstanding = a.outstanding := congrArg Books.outstanding hbooks
  have hflight : a'.inFlight = a.inFlight := congrArg Books.inFlight hbooks
  obtain ⟨n, hn, htold⟩ := h.counters
  refine ⟨⟨n, ?_, .of_traffic htold.traffic htraffic⟩, ?_, fun hword => ?_⟩
  · rw [hflight]
    exact hn
  · rw [hout]
    exact h.flying
  · rw [hout]
    exact (congrArg Counters.outstanding htraffic).trans (h.outstanding hword)

/-- Nothing leaves a port, and nothing is drained. -/
theorem idle {c : Counters} (h : Tallied es a) (hbooked : Booked a.books e a'.books)
    (hserved : e.served = []) (hsent : e.sent = []) (hdrained : e.drained = [])
    (hcounted : a'.stats.traffic = c) (hsame : c.outstanding = a.stats.outstanding)
    (htells : ∀ t, a.stats.traffic.Tells t → c.Tells { t with
      accepted := t.accepted + e.accepted.length, refused := t.refused + e.refused.length }) :
    Tallied (es ++ [e]) a' := by
  -- nothing enters or leaves the requests in flight, so only the traffic moves
  have hout : a'.outstanding = a.outstanding := (hbooked.of_idle hserved hdrained).1
  have hflight : a'.inFlight = a.inFlight :=
    congrArg (fun m : AscMap Coalesced => m.values.flatMap Coalesced.origins) hout
  have hsents : (sentIn (es ++ [e])).length = (sentIn es).length := by
    rw [sentIn_append, sentIn_singleton, hsent, List.append_nil]
  obtain ⟨n, hn, htold⟩ := h.counters
  refine ⟨⟨n, ?_, ?_⟩, ?_, ?_⟩
  · rw [retiredIn_append, retiredIn_singleton, hserved, List.map_nil, List.append_nil, hflight]
    exact hn
  · rw [tallyOf_concat, hserved, hsent, hdrained]
    exact .of_traffic (hcounted ▸ htells _ htold.traffic) rfl
  · rw [hsents, drainedIn_append, hdrained, List.append_nil, hout]
    exact h.flying
  · rw [hsents, hout]
    exact fun hword => ((congrArg Counters.outstanding hcounted).trans hsame).trans
      (h.outstanding hword)

/-- Transactions leave their ports, and are in flight. -/
theorem served {c : Counters} (h : Tallied es a) (hbooked : Booked a.books e a'.books)
    (haccepted : e.accepted = []) (hrefused : e.refused = []) (hdrained : e.drained = [])
    (hcounted : a'.stats.traffic = c)
    (htells : ∀ t, a.stats.traffic.Tells t → c.Tells { t with
      retired := t.retired + e.served.length, sent := t.sent + e.sent.length })
    (houtstanding : a.stats.outstanding + e.sent.length ≤ maxWord →
      c.outstanding = a.stats.outstanding + e.sent.length) : Tallied (es ++ [e]) a' := by
  -- the heads served are in flight, in a new request or in one outstanding
  have hsize : a'.outstanding.size = a.outstanding.size + e.sent.length := hbooked.size_eq hdrained
  have hflight : a'.inFlight.length = e.served.length + a.inFlight.length := by
    have hperm := (hbooked.inFlight hdrained).length_eq
    rw [List.length_append, List.length_map] at hperm
    exact hperm
  have hflying := h.flying
  obtain ⟨n, hn, htold⟩ := h.counters
  refine ⟨⟨n, ?_, ?_⟩, ?_, ?_⟩
  · rw [retiredIn_append, retiredIn_singleton, List.length_append, List.length_map]
    omega
  · rw [tallyOf_concat, haccepted, hrefused, hdrained]
    exact .of_traffic (hcounted ▸ htells _ htold.traffic) rfl
  · rw [sentIn_append, sentIn_singleton, drainedIn_append, hdrained, List.append_nil,
      List.length_append]
    omega
  · rw [sentIn_append, sentIn_singleton, List.length_append]
    intro hword
    have hold := h.outstanding (by omega)
    refine (congrArg Counters.outstanding hcounted).trans ?_
    rw [houtstanding (by omega)]
    omega

/-- An answer is drained. -/
theorem answered {now : Nat} {response : BackendResponse} {request : Coalesced} (h : Tallied es a)
    (hbooked : Booked a.books (.answered now response (.ok ())) a'.books)
    (hget : a.outstanding.get? response.id = some request)
    (hcounted : a'.stats.traffic = a.stats.traffic.recordAnswer request.size) :
    Tallied (es ++ [.answered now response (.ok ())]) a' := by
  have hout : a'.outstanding = a.outstanding.erase response.id :=
    congrArg Books.outstanding hbooked.of_answered
  -- the request answered leaves the map, and takes all its origins with it
  have hsize : a.outstanding.size = a'.outstanding.size + 1 := hout ▸ AscMap.size_erase hget
  have hflight : a.inFlight.length = request.size + a'.inFlight.length := by
    have hperm := (AscMap.flatMap_values_erase hget Coalesced.origins).length_eq
    rw [List.length_append, ← hout] at hperm
    exact hperm
  have hflying := h.flying
  obtain ⟨n, hn, htold⟩ := h.counters
  refine ⟨⟨n + request.size, ?_, ?_⟩, ?_, ?_⟩
  · rw [retiredIn_append, retiredIn_singleton]
    simp only [Event.served, List.map_nil, List.append_nil]
    omega
  · rw [tallyOf_concat]
    exact .of_traffic (hcounted ▸ htold.traffic.recordAnswer request.size) rfl
  · rw [sentIn_append, sentIn_singleton, drainedIn_append]
    simp only [Event.sent, Event.drained, List.append_nil, List.length_append,
      List.length_singleton]
    omega
  · rw [sentIn_append, sentIn_singleton]
    simp only [Event.sent, List.append_nil]
    intro hword
    refine (congrArg Counters.outstanding hcounted).trans ?_
    show (a.stats.traffic.recordDeliveries request.size).outstanding - 1 = _
    rw [Counters.outstanding_recordDeliveries]
    show a.stats.outstanding - 1 = _
    rw [h.outstanding hword]
    omega

/-- **Counters that tell the events so far tell one more.** -/
theorem step (h : Tallied es a) (hbooked : Booked a.books e a'.books) (hcounted : Counted a a' e) :
    Tallied (es ++ [e]) a' := by
  cases hcounted with
  | accepted hstats =>
    exact h.idle hbooked rfl rfl rfl hstats rfl fun t ht => ht.recordAccept
  | refused hstats =>
    exact h.idle hbooked rfl rfl rfl hstats rfl fun t ht => ht.recordRequestorReject
  -- a quiet event counts nothing but the refusals it carries
  | quiet hquiet hrefused hstats =>
    obtain ⟨haccepted, hserved, hsent, hdrained⟩ := Event.of_isQuiet hquiet
    refine h.idle hbooked hserved hsent hdrained hstats rfl fun t ht => ?_
    rw [haccepted, hrefused]
    exact ht
  | @sent now granted sent request hstats =>
    refine h.served hbooked rfl rfl rfl hstats (fun t ht => ?_) fun hword => ?_
    · have htold := ht.recordRequest (request.origins.map fun o => a.waitedAt now o.port)
        request.folded.length
      rw [List.length_map] at htold
      simp only [Event.served, List.length_map]
      exact htold
    · exact (Counters.outstanding_recordWaits _ _).trans (satAdd_eq_add hword)
  | @folded now granted id request hstats =>
    refine h.served hbooked rfl rfl rfl hstats (fun t ht => ?_) fun _ => ?_
    · have htold := ht.recordFold (request.origins.map fun o => a.waitedAt now o.port)
        request.folded.length
      rw [List.length_map] at htold
      simp only [Event.served, List.length_map]
      exact htold
    · exact Counters.outstanding_recordWaits _ _
  | answered hget hstats => exact h.answered hbooked hget hstats

end Tallied

/-- A new allocator has counted nothing. -/
theorem Tallied.of_new {config : AllocatorConfig} {a : Allocator}
    (hnew : Allocator.new config = .ok a) : Tallied [] a := by
  rw [(Allocator.eq_of_new hnew).2]
  exact ⟨⟨0, rfl, ⟨rfl, rfl, rfl, rfl, rfl, rfl⟩⟩, rfl, fun _ => rfl⟩

/-- **The counters tell the events of a run** in which no cycle fails. -/
theorem Linked.tallied {σ : Type} [Requestors σ] [Backend σ] {m : Assembly (Recorded σ)}
    {ms : List (Moment σ)} (h : Linked m ms) (hok : Unbroken ms) (hpass : TicksPass ms)
    (hstart : Tallied [] m.allocator) :
    Tallied (ms.map (·.event)) (endOf m ms).allocator := by
  refine Linked.induct (P := fun pre m' => Tallied (pre.map (·.event)) m'.allocator)
    (R := fun x => x.event.failsTick = false) hstart ?_ h hok hpass
  intro pre x hpre hx hokx hpassx
  rw [List.map_append]
  exact hpre.step (effect_of_genuine hx hokx).booked (counted_of_genuine hx hokx hpassx)

end MemPort
