import MemPort.Proofs.Deliveries

/-!
# What a piece of a run does

Every piece of a run is one step of the allocator, and every step has a
specification of its own.  Here they are gathered in one relation between the
assemblies before and after: `Effect` has one case for each kind of event, and
each case determines the allocator afterwards, up to parts that it names.  An
invariant of runs is proved by going through these cases, and never by opening a
step.

## Main definitions

* `Effect` — what an event does to an assembly.
* `Event.isPeripheral` — events that neither serve a head nor concern the
  memory's port.
* `Event.isFromMemory` — calls of the memory, and what is done with its
  answers.

## Main results

* `Effect.frame` — peripheral events touch only ports, locks, counters and
  times.
* `Effect.frame_fromMemory` — what comes from the memory touches its port and
  the requests.
* `effect_of_genuine` — a genuine piece that breaks no contract has the effect
  of its event.

## References

`SPEC_FULL.md`, sections 4.4 to 4.6 and 6: what each entry point may do to the
allocator.
-/

namespace MemPort

variable {σ : Type} [Requestors σ] [Backend σ]

/-- What an event does to an assembly, if no contract is broken. -/
inductive Effect (m m' : Assembly (Recorded σ)) : Event → Prop
  /-- A submission is queued or refused. -/
  | submitted {now port : Nat} {txn : Transaction} {taken : Bool}
      (ha : ∃ ports stats, m'.allocator = { m.allocator with ports, stats })
      (hq : ∀ q, m'.allocator.queuedOn q = m.allocator.queuedOn q ++
        if taken then Origin.txnsOf q [⟨port, txn⟩] else [])
      (hs : m'.surroundings = m.surroundings) : Effect m m' (.submitted now port txn (.ok taken))
  /-- An answer of the memory is queued or refused. -/
  | received {now : Nat} {response : BackendResponse} {taken : Bool}
      (ha : (m.allocator.receive now response).value = (taken, m'.allocator))
      (hs : m'.surroundings = m.surroundings) : Effect m m' (.received now response taken)
  /-- The memory takes requests again. -/
  | resumed (ha : m'.allocator = m.allocator.backendRetry.value)
      (hs : m'.surroundings = m.surroundings) : Effect m m' .resumed
  /-- An access at once, which the requestors are told of before the memory
  performs it. -/
  | performed {now port : Nat} {txn : Transaction} {response : Response}
      (ha : ∃ stats, m'.allocator = { m.allocator with stats, lastActive := now })
      (hs : ∃ s l, Notified m.surroundings s ∧ Backend.accessFunctional
        ⟨functionalId, port, txn.cmd, txn.addr, txn.size, txn.data⟩ s = .ok l ∧
        m'.surroundings = l.value.2 ∧
        response = txn.completion l.value.1.data l.value.1.success) :
      Effect m m' (.performed now port txn (.ok response))
  /-- An access at once that spills past its line. -/
  | rejected {now port : Nat} {txn : Transaction} {v : InvariantViolation} (h : m' = m) :
      Effect m m' (.performed now port txn (.error (.invariant v)))
  /-- The surroundings change, and the memory may call. -/
  | elapsed (ha : Relays m.allocator m'.allocator)
      (hs : m'.surroundings.contacts = m.surroundings.contacts) : Effect m m' .elapsed
  /-- An answer is drained, and its request is no longer in flight. -/
  | answered {now : Nat} {response : BackendResponse} {result : Except Failure Unit}
      {backendPort : BackendPort}
      (hdrain : m.allocator.backendPort.drain? now = some (response, backendPort))
      (ha : ∃ stats lastActive, m'.allocator = { m.allocator with
        backendPort, stats, lastActive
        outstanding := m.allocator.outstanding.erase response.id })
      (hhanded : Handed m response result m') (hok : ∀ a, result ≠ .error (.assertion a)) :
      Effect m m' (.answered now response result)
  /-- The debt of a response retry is settled. -/
  | settled {now : Nat}
      (ha : m'.allocator = { m.allocator with backendPort := m.allocator.backendPort.takeRetry.2 })
      (hs : m'.surroundings = m.surroundings ∨
        m'.surroundings = (Backend.notifyResponseRetry m.surroundings).value) :
      Effect m m' (.settled now)
  /-- Old locks are dropped. -/
  | swept {now : Nat}
      (ha : ∃ ports stats, m'.allocator = { m.allocator with
        ports, stats, locks := (m.allocator.locks.expire now).2 })
      (hq : ∀ q, m'.allocator.queuedOn q = m.allocator.queuedOn q)
      (hs : m'.surroundings = m.surroundings) : Effect m m' (.swept now)
  /-- A turn is taken. -/
  | turned {now : Nat} {result : Except Failure Turn}
      (hbusy : m.allocator.backendPort.busy = false)
      (hok : ∀ a, result ≠ .error (.assertion a)) (h : Assembly.Turned m now result m') :
      Effect m m' (.turned now result)
  /-- Progress is checked. -/
  | checked {now : Nat} {result : Except Failure Unit}
      (ha : ∃ nextProgressCheck, m'.allocator = { m.allocator with nextProgressCheck })
      (hs : m'.surroundings = m.surroundings) : Effect m m' (.checked now result)

/-- Whether an event neither serves a head nor concerns the port to the memory:
submissions, accesses at once, sweeps, checks of progress, and turns without a
request. -/
def Event.isPeripheral : Event → Bool
  | submitted .. | performed .. | swept _ | checked .. => true
  | turned _ (.ok .idle) | turned _ (.ok (.parked _)) | turned _ (.error _) => true
  | _ => false

/-- **Peripheral events touch only ports, locks, counters and times**, and locks
live as long as before. -/
theorem Effect.frame {m m' : Assembly (Recorded σ)} {e : Event} (h : Effect m m' e)
    (hperipheral : e.isPeripheral = true) :
    ∃ ports locks stats lastActive nextProgressCheck,
      locks.timeout = m.allocator.locks.timeout ∧ m'.allocator = { m.allocator with
        ports, locks, stats, lastActive, nextProgressCheck } := by
  cases h with
  | submitted ha _ _ =>
    obtain ⟨ports, stats, ha⟩ := ha
    exact ⟨ports, _, stats, _, _, rfl, ha⟩
  | performed ha _ =>
    obtain ⟨stats, ha⟩ := ha
    exact ⟨_, _, stats, _, _, rfl, ha⟩
  | rejected h => exact ⟨_, _, _, _, _, rfl, congrArg Assembly.allocator h⟩
  | swept ha _ _ =>
    obtain ⟨ports, stats, ha⟩ := ha
    exact ⟨ports, (m.allocator.locks.expire _).2, stats, _, _, rfl, ha⟩
  | checked ha _ =>
    obtain ⟨next, ha⟩ := ha
    exact ⟨_, _, _, _, next, rfl, ha⟩
  | turned _ hok h =>
    -- a turn without a request ends before it forms one, or because its number is in use
    cases h with
    | idle _ => exact ⟨_, _, _, _, _, rfl, rfl⟩
    | parked _ _ ha _ _ =>
      obtain ⟨p, stats, -, ha⟩ := ha
      exact ⟨_, _, stats, _, _, rfl, ha⟩
    | spilled hcleared _ _ _ =>
      obtain ⟨ports, locks, stats, htimeout, ha⟩ := hcleared.frame
      exact ⟨ports, locks, stats, _, _, htimeout, ha⟩
    | served hcleared _ hserved =>
      obtain ⟨ports, locks, stats, htimeout, ha⟩ := hcleared.frame
      cases hserved with
      | broken a => exact absurd rfl (hok a)
      | duplicate _ h _ => exact ⟨ports, locks, stats, _, _, htimeout, h ▸ ha⟩
      | _ => cases hperipheral
  | _ => cases hperipheral

/-- Whether an event is a call of the memory, or does something with one of its
answers. -/
def Event.isFromMemory : Event → Bool
  | received .. | resumed | elapsed | answered .. | settled _ => true
  | _ => false

/-- **What comes from the memory touches only its port, the requests in flight,
counters and times**: neither the front ends nor the locks. -/
theorem Effect.frame_fromMemory {m m' : Assembly (Recorded σ)} {e : Event} (h : Effect m m' e)
    (hmemory : e.isFromMemory = true) :
    ∃ backendPort outstanding stats lastActive, m'.allocator = { m.allocator with
      backendPort, outstanding, stats, lastActive } := by
  cases h with
  | @received now response _ ha _ =>
    obtain ⟨backendPort, responseRejects, hframe⟩ :=
      (Relays.received (a := m.allocator) now response .refl).frame
    rw [ha] at hframe
    exact ⟨backendPort, _, _, _, hframe⟩
  | resumed ha _ => exact ⟨_, _, _, _, ha⟩
  | elapsed ha _ =>
    obtain ⟨backendPort, responseRejects, hframe⟩ := ha.frame
    exact ⟨backendPort, _, _, _, hframe⟩
  | answered _ ha _ _ =>
    obtain ⟨stats, lastActive, ha⟩ := ha
    exact ⟨_, _, stats, lastActive, ha⟩
  | settled ha _ => exact ⟨_, _, _, _, ha⟩
  -- the other effects come from a requestor or from the allocator itself
  | _ => cases hmemory

/-! ### The steps one by one -/

namespace Allocator

theorem queuedOn_setPort {a : Allocator} {port : Nat} {p p' : RequestorPort}
    (hp : a.ports[port]? = some p) {added : List Transaction} (h : p'.queued = p.queued ++ added)
    (q : Nat) : (a.setPort port p').queuedOn q =
      a.queuedOn q ++ if port = q then added else [] := by
  unfold queuedOn queuedIn setPort
  by_cases hq : port = q
  · subst hq
    have hlt := (List.getElem?_eq_some_iff.mp hp).1
    rw [List.getElem?_set_self hlt, hp, if_pos rfl, Option.map_some, Option.map_some, h]
    rfl
  · rw [List.getElem?_set_ne hq, if_neg hq, List.append_nil]

theorem queuedOn_unparkAll (a : Allocator) (q : Nat) : a.unparkAll.queuedOn q = a.queuedOn q := by
  unfold queuedOn queuedIn unparkAll
  rw [List.getElem?_map, Option.map_map]
  rfl

theorem queuedOn_submit {a : Allocator} {now port : Nat} {txn : Transaction}
    {l : Logged (Bool × Allocator)} (h : a.submit now port txn = .ok l) :
    (∃ ports stats, l.value.2 = { a with ports, stats }) ∧
      ∀ q, l.value.2.queuedOn q = a.queuedOn q ++
        if l.value.1 then Origin.txnsOf q [⟨port, txn⟩] else [] := by
  obtain ⟨p, hp, hl⟩ := exists_of_submit h
  rw [hl]
  refine ⟨⟨_, _, rfl⟩, fun q => ?_⟩
  unfold RequestorPort.push
  cases hpush : p.queue.push? now txn with
  | none =>
    -- refused: the flag is set and the queue stays
    have hqueued : ({ p with needsRetry := true } : RequestorPort).queued = p.queued ++ [] :=
      (List.append_nil _).symm
    have hsame := queuedOn_setPort hp hqueued q
    rw [ite_self] at hsame
    exact hsame
  | some queue =>
    -- accepted: the transaction is the last of its own queue, and of no other
    have hqueued : ({ p with queue } : RequestorPort).queued = p.queued ++ [txn] := by
      unfold RequestorPort.queued
      simp [(TimedQueue.entries_push? hpush).1]
    have hmore := queuedOn_setPort hp hqueued q
    have hone : Origin.txnsOf q [⟨port, txn⟩] = if port = q then [txn] else [] := by
      rw [Origin.txnsOf_cons, Origin.txnsOf_nil, List.append_nil]
    rw [← hone] at hmore
    exact hmore

end Allocator

namespace Assembly

/-- A submission that breaks no contract goes through. -/
theorem exists_of_submit {σ : Type} {m : Assembly σ} {now port : Nat} {txn : Transaction}
    (hok : ∀ a, (m.submit now port txn).result ≠ .error (.assertion a)) :
    ∃ l, m.allocator.submit now port txn = .ok l ∧ m.submit now port txn =
      .ok l.value.1 (({ m with allocator := l.value.2 } : Assembly σ).noteAll l.notices) := by
  unfold submit at hok ⊢
  cases hsubmit : m.allocator.submit now port txn with
  | error a =>
    rw [hsubmit] at hok
    exact absurd rfl (hok a)
  | ok l => exact ⟨l, rfl, rfl⟩

omit [Backend σ] in
/-- Handing an answer out takes its request out of flight, whether or not that
fails. -/
theorem frame_answer (m : Assembly (Recorded σ)) (now : Nat) (response : BackendResponse) :
    ∃ stats lastActive, (m.answer now response).left.allocator = { m.allocator with
      stats, lastActive, outstanding := m.allocator.outstanding.erase response.id } := by
  -- the frame is a property every step of the fan-out keeps
  refine answer_keeps (P := fun m' => ∃ stats lastActive, m'.allocator = { m.allocator with
    stats, lastActive, outstanding := m.allocator.outstanding.erase response.id })
    (fun m' port completion h => ?_) (fun m' h => ?_) (fun m' h => ?_) m (fun hnone => ?_)
    (fun n => ⟨_, _, rfl⟩)
  · rw [left_deliver]
    exact h
  · obtain ⟨stats, lastActive, h⟩ := h
    refine ⟨stats.recordDelivery, lastActive, ?_⟩
    rw [allocator_count, h]
    rfl
  · obtain ⟨stats, lastActive, h⟩ := h
    refine ⟨stats.recordDrain, now, ?_⟩
    rw [allocator_update, allocator_count, h]
    rfl
  -- an unknown identifier erases nothing
  · rw [AscMap.erase_of_get?_eq_none hnone]
    exact ⟨_, _, rfl⟩

/-- An access at once that breaks no contract goes through, unless it spills
past its line. -/
theorem accessFunctional_cases {m : Assembly (Recorded σ)} {now port : Nat} {txn : Transaction}
    (hok : ∀ a, (m.accessFunctional now port txn).result ≠ .error (.assertion a)) :
    (∃ v, m.accessFunctional now port txn = .error (.invariant v) m) ∨
      ∃ response m', m.accessFunctional now port txn = .ok response m' := by
  unfold accessFunctional at hok ⊢
  split
  · rename_i hport
    -- every branch but two ends in an assertion, which `hok` rules out
    rw [if_pos hport] at hok
    exact absurd rfl (hok _)
  · rename_i hport
    rw [if_neg hport] at hok
    split
    · exact Or.inl ⟨_, rfl⟩
    · rename_i hfit
      simp only [hfit] at hok
      simp only
      split
      · rename_i e m₁ hsnoop
        obtain ⟨a, rfl, -⟩ := broken_broadcast? hsnoop
        rw [hsnoop] at hok
        exact absurd rfl (hok a)
      · rename_i m₁ hsnoop
        simp only [hsnoop] at hok
        split
        · rename_i a hacc
          simp only [hacc] at hok
          exact absurd rfl (hok a)
        · exact Or.inr ⟨_, _, rfl⟩

theorem effect_functional {m : Assembly (Recorded σ)} {now port : Nat} {txn : Transaction}
    (hok : ∀ a, (m.accessFunctional now port txn).result ≠ .error (.assertion a)) :
    Effect m (m.accessFunctional now port txn).left
      (.performed now port txn (m.accessFunctional now port txn).result) := by
  obtain ⟨v, h⟩ | ⟨response, m', h⟩ := accessFunctional_cases hok
  · rw [h]
    exact .rejected rfl
  · rw [h]
    obtain ⟨-, m₁, l, htold, hperformed, rfl, rfl⟩ := accessFunctional_eq_ok h
    obtain ⟨⟨stats, ha⟩, hsnooped⟩ := frame_broadcast? htold
    refine .performed ⟨stats.recordFunctional, ?_⟩
      ⟨m₁.surroundings, l, hsnooped.notified, hperformed, rfl, rfl⟩
    rw [Outcome.left_ok, allocator_update, allocator_count, ha]
    rfl

omit [Requestors σ] [Backend σ] in
/-- A check of progress sets the time of the next one, and calls nobody. -/
theorem frame_checkProgress (m : Assembly σ) (now : Nat) :
    (∃ nextProgressCheck, (m.checkProgress now).left.allocator =
      { m.allocator with nextProgressCheck }) ∧
      (m.checkProgress now).left.surroundings = m.surroundings := by
  unfold checkProgress
  split
  · exact ⟨⟨_, rfl⟩, rfl⟩
  · simp only
    split <;> exact ⟨⟨_, rfl⟩, rfl⟩

end Assembly

/-! ### All steps -/

/-- **A genuine piece has the effect of its event**, unless a contract is broken. -/
theorem effect_of_genuine {x : Moment σ} (h : x.Genuine) (hok : x.event.isBroken = false) :
    Effect x.before x.after x.event := by
  cases h with
  | submitted m now port txn =>
    obtain ⟨l, hsubmit, heq⟩ := Assembly.exists_of_submit (Event.ne_assertion hok rfl)
    obtain ⟨ha, hq⟩ := Allocator.queuedOn_submit hsubmit
    rw [heq]
    exact .submitted ha hq rfl
  | received m now response => exact .received rfl rfl
  | resumed m => exact .resumed rfl rfl
  | performed m now port txn => exact Assembly.effect_functional (Event.ne_assertion hok rfl)
  | elapsed m a s j h => exact .elapsed h rfl
  | interrupted m now a => cases hok
  | answered m now response port h =>
    obtain ⟨stats, lastActive, ha⟩ :=
      Assembly.frame_answer (m.update fun a => { a with backendPort := port }) now response
    have hhanded := handed_answer (m.update fun a => { a with backendPort := port }) now response
    -- the result and the state left are generalized: `cases` needs variables there
    refine .answered h ⟨stats, lastActive, ha⟩ ?_ (Event.ne_assertion hok rfl)
    generalize ((m.update fun a => { a with backendPort := port }).answer now response).result =
      result at hhanded ⊢
    generalize ((m.update fun a => { a with backendPort := port }).answer now response).left =
      m' at hhanded ⊢
    cases hhanded with
    | all hrequest hds hdeliveries => exact .all hrequest hds hdeliveries
    | nothing hrequest hdeliveries => exact .nothing hrequest hdeliveries
    | short hrequest hds hdeliveries => exact .short hrequest hds hdeliveries
    | refused => exact .refused
    | broken => exact .broken
  | settled m now =>
    -- at most the memory is told that it may send again
    refine .settled m.allocator_settleResponses ?_
    unfold Assembly.settleResponses
    simp only
    split
    · exact Or.inr rfl
    · exact Or.inl rfl
  | swept m now =>
    -- an entry that expired unparks the ports, which keep their queues
    obtain ⟨hs, ha | ⟨-, ha⟩⟩ := m.sweepLocks_cases now
    · refine .swept ⟨_, _, ha⟩ (fun q => ?_) hs
      simp only [ha]
      exact Allocator.queuedOn_unparkAll m.allocator q
    · refine .swept ⟨_, _, ha⟩ (fun q => ?_) hs
      simp only [ha]
      rfl
  | turned m now h => exact .turned h (Event.ne_assertion hok rfl) (Assembly.turned_issueTurn h)
  | checked m now =>
    obtain ⟨ha, hs⟩ := m.frame_checkProgress now
    exact .checked ha hs

end MemPort
