import MemPort.Bench.EchoMemory
import MemPort.Bench.Lanes
import MemPort.Proofs.Arrivals
import MemPort.Proofs.Tallies

/-!
# Statistics track the state

The counters of an allocator are kept for people to read, and nothing in the
allocator depends on them.  All the same they say what its queues and its
requests in flight say, at every point of a run: what was accepted is issued or
queued, what was issued is completed or behind a request in flight, and what
went out is answered or in flight.  Two more counters speak of the past: the
greatest number of requests that were in flight right after one went out, and
the waits of all transactions that left their ports.

## Main definitions

* `peakIn` — the most requests in flight right after one went out.
* `Metered` — the counters tell the pieces of a run.

## Main results

* `Metered.step` — counters that tell the pieces so far tell one more.
* `statistics_track` — the counters balance with the state at every point of a
  run.

## References

`SPEC_FULL.md`, section 10.5: the counters.
-/

namespace MemPort

/-- The most requests that were in flight right after one of them went out, zero
if none did. -/
def peakIn {σ : Type} (ms : List (Moment σ)) : Nat :=
  ms.foldl (fun peak x =>
    if x.event.sent = [] then peak else max peak x.after.allocator.outstanding.size) 0

theorem peakIn_concat {σ : Type} (ms : List (Moment σ)) (x : Moment σ) :
    peakIn (ms ++ [x]) =
      if x.event.sent = [] then peakIn ms
      else max (peakIn ms) x.after.allocator.outstanding.size := by
  unfold peakIn
  rw [List.foldl_append, List.foldl_cons, List.foldl_nil]

/-! ### What an event does to the two counters of the past -/

namespace Counters

theorem maxOutstanding_recordWaits (waits : List Nat) (c : Counters) :
    (c.recordWaits waits).maxOutstanding = c.maxOutstanding := by
  rw [recordWaits_eq]

/-- Deliveries touch one counter only. -/
theorem recordDeliveries_eq (n : Nat) (c : Counters) :
    c.recordDeliveries n =
      { c with responsesDelivered := (c.recordDeliveries n).responsesDelivered } := by
  induction n generalizing c with
  | zero => rfl
  | succ n ih => exact ih c.recordDelivery

theorem maxOutstanding_recordAnswer (n : Nat) (c : Counters) :
    (c.recordAnswer n).maxOutstanding = c.maxOutstanding := by
  unfold recordAnswer
  rw [recordDeliveries_eq]
  rfl

theorem waitLatency_recordAnswer (n : Nat) (c : Counters) :
    (c.recordAnswer n).waitLatency = c.waitLatency := by
  unfold recordAnswer
  rw [recordDeliveries_eq]
  rfl

end Counters

/-- A piece in which a request goes out sends one request, and drains nothing. -/
theorem Event.of_sent {e : Event} (h : e.sent ≠ []) : e.sent.length = 1 ∧ e.drained = [] := by
  cases e with
  | turned now result =>
    cases result with
    | error _ => exact absurd rfl h
    | ok turn =>
      cases turn with
      | sent granted request transactions => exact ⟨rfl, rfl⟩
      | _ => exact absurd rfl h
  | _ => exact absurd rfl h

/-- The greatest number of requests in flight is looked at where a request goes
out. -/
theorem Counted.maxOutstanding {a a' : Allocator} {e : Event} (h : Counted a a' e) :
    a'.stats.maxOutstanding =
      if e.sent = [] then a.stats.maxOutstanding
      else max a.stats.maxOutstanding (satAdd a.stats.outstanding 1) := by
  -- the counters that are left out have no part in it
  have htold : ∀ {c : Counters}, a'.stats.traffic = c →
      a'.stats.maxOutstanding = c.maxOutstanding := by
    rintro c rfl
    rfl
  cases h with
  | accepted h => exact (htold h).trans rfl
  | refused h => exact (htold h).trans rfl
  | sent h => exact (htold h).trans (Counters.maxOutstanding_recordWaits _ _)
  | folded h => exact (htold h).trans (Counters.maxOutstanding_recordWaits _ _)
  | answered _ h => exact (htold h).trans (Counters.maxOutstanding_recordAnswer _ _)
  | quiet hquiet _ h =>
    rw [if_pos (Event.of_isQuiet hquiet).2.2.1]
    exact (htold h).trans rfl

/-- Where transactions leave their ports, their waits are added up. -/
theorem Counted.waitLatency {σ : Type} {x : Moment σ} {n : Nat}
    (h : Counted x.before.allocator x.after.allocator x.event)
    (hold : x.before.allocator.stats.waitLatency = min n maxWord) :
    x.after.allocator.stats.waitLatency = min (n + total x.waits) maxWord := by
  obtain ⟨m, e, m'⟩ := x
  have htold : ∀ {c : Counters}, m'.allocator.stats.traffic = c →
      m'.allocator.stats.waitLatency = c.waitLatency := by
    rintro c rfl
    rfl
  cases h with
  | accepted h => exact (htold h).trans hold
  | refused h => exact (htold h).trans hold
  | @sent now granted sent request h =>
    have hadded := Counters.waitLatency_recordWaits (c := m.allocator.stats.traffic.recordSend) hold
      (request.origins.map fun o => m.allocator.waitedAt now o.port)
    unfold Moment.waits
    simp only [Event.served_sent, List.map_map]
    exact (htold h).trans hadded
  | @folded now granted id request h =>
    have hadded := Counters.waitLatency_recordWaits
      (c := (m.allocator.stats.traffic.recordSpaceCoalesced
        request.folded.length).recordTimeCoalesced
        (request.folded.length + 1)) hold
      (request.origins.map fun o => m.allocator.waitedAt now o.port)
    unfold Moment.waits
    simp only [Event.served_folded, List.map_map]
    exact (htold h).trans hadded
  | answered _ h => exact ((htold h).trans (Counters.waitLatency_recordAnswer _ _)).trans hold
  | quiet hquiet _ h =>
    have hserved := (Event.of_isQuiet hquiet).2.1
    have hnone : (⟨m, e, m'⟩ : Moment σ).waits = [] := by
      unfold Moment.waits
      cases e with
      | turned now result =>
        simp only
        rw [hserved, List.map_nil]
      | _ => rfl
    rw [hnone]
    exact (htold h).trans hold

/-! ### Runs -/

/-- The counters of an allocator tell the pieces of a run. -/
structure Metered {σ : Type} (ms : List (Moment σ)) (a : Allocator) : Prop where
  /-- They tell the events. -/
  tallied : Tallied (ms.map (·.event)) a
  /-- They tell the most requests in flight, as long as a word can tell how many
  went out. -/
  peak : (sentIn (ms.map (·.event))).length ≤ maxWord → a.stats.maxOutstanding = peakIn ms
  /-- They tell the waits, as far as a word can. -/
  latency : a.stats.waitLatency = min (total (ms.flatMap Moment.waits)) maxWord

section Runs

variable {σ : Type} [Requestors σ] [Backend σ]

/-- **Counters that tell the pieces so far tell one more**, if no cycle fails in
it. -/
theorem Metered.step {pre : List (Moment σ)} {x : Moment σ} (h : Metered pre x.before.allocator)
    (hx : x.Genuine) (hok : x.event.isBroken = false) (hpass : x.event.failsTick = false) :
    Metered (pre ++ [x]) x.after.allocator := by
  have hbooked := (effect_of_genuine hx hok).booked
  have hcounted := counted_of_genuine hx hok hpass
  refine ⟨?_, fun hword => ?_, ?_⟩
  · rw [List.map_append]
    exact h.tallied.step hbooked hcounted
  · rw [List.map_append, List.map_singleton, sentIn_append, sentIn_singleton, List.length_append]
      at hword
    rw [hcounted.maxOutstanding, h.peak (by omega), peakIn_concat]
    by_cases hsent : x.event.sent = []
    · rw [if_pos hsent, if_pos hsent]
    · -- the request that goes out is one more in flight
      obtain ⟨hone, hdrained⟩ := Event.of_sent hsent
      have hsize := hbooked.size_eq hdrained
      rw [hone] at hsize
      have hflying := h.tallied.flying
      rw [if_neg hsent, if_neg hsent, h.tallied.outstanding (by omega), satAdd_eq_add (by omega)]
      exact congrArg (max (peakIn pre)) hsize.symm
  · rw [List.flatMap_append, List.flatMap_singleton, total_append]
    exact hcounted.waitLatency h.latency

/-- The counters tell the pieces of a run in which no cycle fails. -/
theorem Linked.metered {m : Assembly (Recorded σ)} {ms : List (Moment σ)} (h : Linked m ms)
    (hok : Unbroken ms) (hpass : TicksPass ms)
    (hstart : Metered ([] : List (Moment σ)) m.allocator) :
    Metered ms (endOf m ms).allocator :=
  Linked.induct (P := fun pre m' => Metered pre m'.allocator)
    (R := fun x => x.event.failsTick = false)
    hstart (fun _ _ hpre hx hokx hpassx => hpre.step hx hokx hpassx) h hok hpass

omit [Requestors σ] [Backend σ] in
/-- A new allocator has counted nothing. -/
theorem Metered.of_new {config : AllocatorConfig} {a : Allocator}
    (hnew : Allocator.new config = .ok a) : Metered ([] : List (Moment σ)) a := by
  have htallied := Tallied.of_new hnew
  rw [(Allocator.eq_of_new hnew).2] at htallied ⊢
  exact ⟨htallied, fun _ => rfl, rfl⟩

/-- **The statistics track the state.**  At every point of a run in which no
cycle fails, as long as words can tell how many transactions were accepted and
how long they waited:

* what was accepted has left its port or is queued;
* what has left its port was completed or is behind a request in flight;
* what went out was answered or is in flight, and the requests in flight are
  counted;
* the greatest number of requests in flight is the one after some request went
  out;
* the waits are those of the transactions that left their ports, each between
  its arrival and its departure. -/
theorem statistics_track {config : AllocatorConfig} {a : Allocator}
    (hnew : Allocator.new config = .ok a) (s : σ) (j : Journal) (calls : List (Call σ))
    {ms : List (Moment σ)} (hrun : ms <+: run calls ⟨a, .start s, j⟩) (hok : Unbroken ms)
    (hpass : TicksPass ms) (haccepted : (acceptedIn (ms.map (·.event))).length ≤ maxWord)
    (hwaits : total (waitsIn config.numPorts (ms.map (·.event))) ≤ maxWord) :
    let after := (endOf ⟨a, .start s, j⟩ ms).allocator
    after.stats.accepted = after.stats.requestCount + after.waiting ∧
      after.stats.requestCount = after.stats.responsesDelivered + after.inFlight.length ∧
      after.stats.backendSends = after.stats.responsesDrained + after.outstanding.size ∧
      after.stats.outstanding = after.outstanding.size ∧
      after.stats.maxOutstanding = peakIn ms ∧
      after.stats.waitLatency = total (waitsIn config.numPorts (ms.map (·.event))) := by
  have hlinked := (linked_run calls ⟨a, .start s, j⟩).initial hrun
  have hmetered := hlinked.metered hok hpass (.of_new hnew)
  have hkept := hlinked.kept hok
  rw [Allocator.books_new hnew] at hkept
  have htotal := hlinked.total_waitsIn hok fun port => Allocator.stampsOn_new hnew port
  have hports : a.ports.length = config.numPorts := by
    rw [(Allocator.eq_of_new hnew).2]
    exact (List.length_map _).trans List.length_range
  rw [hports] at htotal
  generalize (endOf ⟨a, .start s, j⟩ ms).allocator = after at hmetered hkept ⊢
  -- words are wide enough for all counts
  have hqueued := hkept.length_acceptedIn
  have hsent := length_sentIn_le (ms.map (·.event))
  have hflying := hmetered.tallied.flying
  obtain ⟨delivered, hretired, htells⟩ := hmetered.tallied.counters
  have hfits : ∀ {count n : Nat}, count = min n maxWord →
      n ≤ (acceptedIn (ms.map (·.event))).length →
        count = n := fun hcount hn => hcount.trans (Nat.min_eq_left (Nat.le_trans hn haccepted))
  have hcaccepted := hfits htells.accepted (Nat.le_refl _)
  have hcretired := hfits htells.retired (show (retiredIn _).length ≤ _ by omega)
  have hcdelivered := hfits htells.delivered (show delivered ≤ _ by omega)
  have hcsent := hfits htells.sent (show (sentIn _).length ≤ _ by omega)
  have hcdrained := hfits htells.drained (show (drainedIn _).length ≤ _ by omega)
  unfold tallyOf at hcaccepted hcretired hcdelivered hcsent hcdrained
  simp only at hcaccepted hcretired hcdelivered hcsent hcdrained
  refine ⟨by omega, by omega, by omega, hmetered.tallied.outstanding (by omega),
    hmetered.peak (by omega), ?_⟩
  rw [hmetered.latency, ← htotal, Nat.min_eq_left hwaits]

end Runs

/-- A lane loads a line, then both lanes load another line two cycles before the
next tick, and the first load is answered; the last transaction stays queued. -/
def staggeredLoads : List (Call (Lanes × EchoMemory)) :=
  [.submit 0 0 (.load .read 7 64 4), .tick 0, .submit 1 0 (.load .read 8 128 4),
    .submit 1 1 (.load .read 9 136 4), .tick 3,
    .receive 4 ⟨0, List.replicate 64 5, true⟩, .tick 4,
    .submit 5 1 (.load .read 10 256 4)]

/-- Where the two lanes begin. -/
def staggeredLoadsStart : Assembly (Recorded (Lanes × EchoMemory)) :=
  ⟨.ofConfig { numPorts := 2, requestLatency := 0, enableCoalescing := true },
    .start (Lanes.plain 2, EchoMemory.new false), .start .warn⟩

/-- Three of four loads left their ports, two of them after two cycles, and two
requests were in flight. -/
theorem statistics_track_staggeredLoads :
    let after := (endOf staggeredLoadsStart (run staggeredLoads staggeredLoadsStart)).allocator
    after.stats.accepted = 3 + 1 ∧ after.stats.requestCount = 1 + 2 ∧
    after.stats.backendSends = 1 + 1 ∧
      after.stats.outstanding = 1 ∧ after.stats.maxOutstanding = 2 ∧
      after.stats.waitLatency = 0 + 2 + 2 := by
  have hnew : Allocator.new { numPorts := 2, requestLatency := 0, enableCoalescing := true } =
      .ok staggeredLoadsStart.allocator := by rfl
  obtain ⟨haccepted, hissued, hsent, houtstanding, hpeak, hwaits⟩ :=
    statistics_track hnew (Lanes.plain 2, EchoMemory.new false) (.start .warn) staggeredLoads
      List.prefix_rfl (by decide +kernel) (by decide +kernel) (by decide +kernel)
        (by decide +kernel)
  refine ⟨haccepted.trans ?_, hissued.trans ?_, hsent.trans ?_, houtstanding.trans ?_,
    hpeak.trans ?_, hwaits.trans ?_⟩ <;> decide +kernel

end MemPort
