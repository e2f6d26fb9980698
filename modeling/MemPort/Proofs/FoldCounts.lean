import Mathlib.Data.List.Flatten
import Mathlib.Data.List.Perm.Basic
import MemPort.Proofs.Statistics

/-!
# How issued transactions are counted

A transaction that leaves its port is counted by the part that it plays: it
takes a request out, it was gathered behind the head that was granted, or it
joins a load in flight.  The parts are not exclusive.  A grant that has gathered
other heads may join a load in flight as a whole, and then those heads are
counted for both.  They are the only ones: every other transaction is counted
once.

## Main definitions

* `leadingIn`, `gatheredIn`, `joiningIn` — the transactions that play each
  part.
* `regatheredIn` — those that were gathered, and joined a load in flight all
  the same.
* `FoldsTold` — the counters of folds tell the events.

## Main results

* `parts_perm` — the parts cover what left its port once, and what is
  regathered once more.
* `FoldsTold.step` — counters that tell the events so far tell one more.
* `issues_counted` — the counters of a run tell the parts that its
  transactions played.
* `not_counted_once` — a transaction that is regathered is counted twice.

## References

`SPEC_FULL.md`, section 10.5: the counters of folded transactions.
-/

namespace MemPort

/-! ### The parts that a transaction plays -/

namespace Event

/-- The transaction that takes a request out. -/
def leading : Event → List Origin
  | turned _ (.ok (.sent _ _ request)) => [request.first]
  | _ => []

/-- The transactions that were gathered behind the head of the granted port. -/
def gathered : Event → List Origin
  | turned _ (.ok (.sent _ _ request)) | turned _ (.ok (.folded _ _ request)) => request.folded
  | _ => []

/-- The transactions that join a load in flight. -/
def joining : Event → List Origin
  | turned _ (.ok (.folded _ _ request)) => request.origins
  | _ => []

/-- The transactions that were gathered behind a head, and join a load in flight
with it. -/
def regathered : Event → List Origin
  | turned _ (.ok (.folded _ _ request)) => request.folded
  | _ => []

/-- **The parts cover what leaves its port in an event**, and what is regathered
once more. -/
theorem parts_perm (e : Event) :
    (e.leading ++ e.gathered ++ e.joining).Perm (e.served.map (·.2) ++ e.regathered) := by
  cases e with
  | turned now result =>
    cases result with
    | error _ => exact .refl _
    | ok turn =>
      cases turn with
      | sent granted sent request =>
        simp only [leading, gathered, joining, served, regathered, map_snd_pair, Coalesced.origins,
          List.append_nil, List.singleton_append]
        exact .refl _
      | folded granted id request =>
        simp only [leading, gathered, joining, served, regathered, map_snd_pair, List.nil_append]
        exact List.perm_append_comm
      | _ => exact .refl _
  | _ => exact .refl _

/-- One transaction takes a request out. -/
theorem length_leading (e : Event) : e.leading.length = e.sent.length := by
  cases e with
  | turned now result =>
    cases result with
    | error _ => rfl
    | ok turn => cases turn <;> rfl
  | _ => rfl

/-- Where nothing leaves its port, nothing plays a part. -/
theorem of_served_nil {e : Event} (h : e.served = []) :
    e.gathered = [] ∧ e.joining = [] ∧ e.regathered = [] := by
  cases e with
  | turned now result =>
    cases result with
    | error _ => exact ⟨rfl, rfl, rfl⟩
    | ok turn =>
      cases turn with
      | sent granted sent request => cases h
      | folded granted id request => cases h
      | _ => exact ⟨rfl, rfl, rfl⟩
  | _ => exact ⟨rfl, rfl, rfl⟩

end Event

/-- The transactions that took a request out, in order. -/
def leadingIn (es : List Event) : List Origin := es.flatMap Event.leading

/-- The transactions that were gathered behind the head of a granted port, in
order. -/
def gatheredIn (es : List Event) : List Origin := es.flatMap Event.gathered

/-- The transactions that joined a load in flight, in order. -/
def joiningIn (es : List Event) : List Origin := es.flatMap Event.joining

/-- The transactions that were gathered behind a head which joined a load in
flight, in order. -/
def regatheredIn (es : List Event) : List Origin := es.flatMap Event.regathered

/-- **The parts cover what left its port in a run**, and what is regathered once
more. -/
theorem parts_perm (es : List Event) :
    (leadingIn es ++ gatheredIn es ++ joiningIn es).Perm (retiredIn es ++ regatheredIn es) := by
  have hparts : (leadingIn es ++ gatheredIn es ++ joiningIn es).Perm
      (es.flatMap fun e => e.leading ++ e.gathered ++ e.joining) :=
    ((es.flatMap_append_perm Event.leading Event.gathered).append_right _).trans
      (es.flatMap_append_perm _ _)
  have hevents : (es.flatMap fun e => e.leading ++ e.gathered ++ e.joining).Perm
      (es.flatMap fun e => e.served.map (·.2) ++ e.regathered) :=
    List.Perm.flatMap_left es fun e _ => e.parts_perm
  have hretired : retiredIn es = es.flatMap fun e => e.served.map (·.2) := by
    unfold retiredIn servedIn
    rw [List.map_flatMap]
  rw [hretired]
  exact (hparts.trans hevents).trans (es.flatMap_append_perm _ _).symm

/-- As many transactions took requests out as requests went out. -/
theorem length_leadingIn (es : List Event) : (leadingIn es).length = (sentIn es).length := by
  unfold leadingIn sentIn
  rw [List.length_flatMap, List.length_flatMap]
  simp only [Event.length_leading]

/-- What is regathered was gathered, and joined a load in flight. -/
theorem regatheredIn_sublist (es : List Event) :
    (regatheredIn es).Sublist (gatheredIn es) ∧ (regatheredIn es).Sublist (joiningIn es) := by
  have hevent : ∀ e : Event, e.regathered.Sublist e.gathered ∧
      e.regathered.Sublist e.joining := by
    intro e
    cases e with
    | turned now result =>
      cases result with
      | error _ => exact ⟨.refl _, .refl _⟩
      | ok turn =>
        cases turn with
        | sent granted sent request => exact ⟨List.nil_sublist _, .refl _⟩
        | folded granted id request => exact ⟨.refl _, List.sublist_cons_self _ _⟩
        | _ => exact ⟨.refl _, .refl _⟩
    | _ => exact ⟨.refl _, .refl _⟩
  exact ⟨.flatMap_right es fun e _ => (hevent e).1, .flatMap_right es fun e _ => (hevent e).2⟩

theorem gatheredIn_concat (es : List Event) (e : Event) :
    gatheredIn (es ++ [e]) = gatheredIn es ++ e.gathered := by
  unfold gatheredIn
  rw [List.flatMap_append, List.flatMap_singleton]

theorem joiningIn_concat (es : List Event) (e : Event) :
    joiningIn (es ++ [e]) = joiningIn es ++ e.joining := by
  unfold joiningIn
  rw [List.flatMap_append, List.flatMap_singleton]

/-! ### What is counted of folds -/

/-- The counters of folds tell the parts of transactions, as far as a word can. -/
structure FoldsTold (es : List Event) (c : Counters) : Prop where
  /-- What was gathered is counted. -/
  space : c.spaceCoalesced = min (gatheredIn es).length maxWord
  /-- What joined a load in flight is counted. -/
  time : c.timeCoalesced = min (joiningIn es).length maxWord

namespace FoldsTold

variable {es : List Event} {e : Event}

/-- Only the two counters matter. -/
theorem congr {c c' : Counters} (h : FoldsTold es c) (hspace : c'.spaceCoalesced = c.spaceCoalesced)
    (htime : c'.timeCoalesced = c.timeCoalesced) : FoldsTold es c' :=
  ⟨hspace.trans h.space, htime.trans h.time⟩

/-- An event in which nothing leaves its port folds nothing. -/
theorem idle {c : Counters} (h : FoldsTold es c) (hserved : e.served = []) :
    FoldsTold (es ++ [e]) c := by
  obtain ⟨hgathered, hjoining, -⟩ := Event.of_served_nil hserved
  constructor
  · rw [gatheredIn_concat, hgathered, List.append_nil]
    exact h.space
  · rw [joiningIn_concat, hjoining, List.append_nil]
    exact h.time

/-- Waits touch no counter of folds. -/
theorem recordWaits {c : Counters} (h : FoldsTold es c) (waits : List Nat) :
    FoldsTold es (c.recordWaits waits) := by
  rw [Counters.recordWaits_eq]
  exact h.congr rfl rfl

/-- What a request takes with it is counted when it goes out. -/
theorem recordRequest {c : Counters} {now granted : Nat} {sent : BackendRequest}
    {request : Coalesced} (h : FoldsTold es c) (waits : List Nat) :
    FoldsTold (es ++ [.turned now (.ok (.sent granted sent request))])
      (c.recordRequest waits request.folded.length) := by
  have hsent : FoldsTold es c.recordSend := h.congr rfl rfl
  have hwaited := hsent.recordWaits waits
  constructor
  · rw [gatheredIn_concat, List.length_append, ← satAdd_min, ← hwaited.space]
    rfl
  · rw [joiningIn_concat]
    simp only [Event.joining, List.append_nil]
    exact hwaited.time

/-- What joins a load in flight is counted, and what was gathered before that. -/
theorem recordFold {c : Counters} {now granted id : Nat} {request : Coalesced}
    (h : FoldsTold es c) (waits : List Nat) :
    FoldsTold (es ++ [.turned now (.ok (.folded granted id request))])
      (c.recordFold waits request.folded.length) := by
  refine recordWaits ⟨?_, ?_⟩ waits
  · rw [gatheredIn_concat, List.length_append, ← satAdd_min, ← h.space]
    rfl
  · rw [joiningIn_concat, List.length_append, ← satAdd_min, ← h.time]
    rfl

/-- **Counters that tell the events so far tell one more.** -/
theorem step {a a' : Allocator} (h : FoldsTold es a.stats) (hcounted : Counted a a' e) :
    FoldsTold (es ++ [e]) a'.stats := by
  have htraffic : FoldsTold es a.stats.traffic := h.congr rfl rfl
  -- the counters that are left out have no part in it
  have htold : ∀ {c : Counters}, a'.stats.traffic = c → FoldsTold (es ++ [e]) c →
      FoldsTold (es ++ [e]) a'.stats := by
    rintro c rfl hc
    exact hc.congr rfl rfl
  cases hcounted with
  | accepted hstats => exact htold hstats ((htraffic.idle rfl).congr rfl rfl)
  | refused hstats => exact htold hstats ((htraffic.idle rfl).congr rfl rfl)
  | sent hstats => exact htold hstats (htraffic.recordRequest _)
  | folded hstats => exact htold hstats (htraffic.recordFold _)
  | @answered now response request hget hstats =>
    have hdelivered : FoldsTold es (a.stats.traffic.recordDeliveries request.size) := by
      rw [Counters.recordDeliveries_eq]
      exact htraffic.congr rfl rfl
    exact htold hstats ((hdelivered.idle rfl).congr rfl rfl)
  | quiet hquiet _ hstats => exact htold hstats (htraffic.idle (Event.of_isQuiet hquiet).2.1)

end FoldsTold

section Runs

variable {σ : Type} [Requestors σ] [Backend σ]

/-- The counters of folds tell the pieces of a run in which no cycle fails. -/
theorem Linked.foldsTold {m : Assembly (Recorded σ)} {ms : List (Moment σ)} (h : Linked m ms)
    (hok : Unbroken ms) (hpass : TicksPass ms) (hstart : FoldsTold [] m.allocator.stats) :
    FoldsTold (ms.map (·.event)) (endOf m ms).allocator.stats := by
  refine Linked.induct (P := fun pre m' => FoldsTold (pre.map (·.event)) m'.allocator.stats)
    (R := fun x => x.event.failsTick = false) hstart ?_ h hok hpass
  intro pre x hpre hx hokx hpassx
  rw [List.map_append]
  exact hpre.step (counted_of_genuine hx hokx hpassx)

/-- **Issued transactions are counted by the parts that they play.**  At every
point of a run in which no cycle fails, as long as words can tell how many
transactions left their ports:

* the counter of sends tells the transactions that took a request out;
* the counter of folds in space tells those that were gathered behind the head
  of a granted port;
* the counter of folds in time tells those that joined a load in flight;
* taken together, these are the transactions that left their ports, each of them
  once, and once more those that were gathered behind a head and joined a load
  in flight with it.

So the three counters exceed the number of transactions that left their ports by
those of the last kind. -/
theorem issues_counted {config : AllocatorConfig} {a : Allocator}
    (hnew : Allocator.new config = .ok a) (s : σ) (j : Journal) (calls : List (Call σ))
    {ms : List (Moment σ)} (hrun : ms <+: run calls ⟨a, .start s, j⟩) (hok : Unbroken ms)
    (hpass : TicksPass ms) (hretired : (retiredIn (ms.map (·.event))).length ≤ maxWord) :
    let stats := (endOf ⟨a, .start s, j⟩ ms).allocator.stats
    let es := ms.map (·.event)
    stats.backendSends = (leadingIn es).length ∧
      stats.spaceCoalesced = (gatheredIn es).length ∧
      stats.timeCoalesced = (joiningIn es).length ∧
      stats.requestCount = (retiredIn es).length ∧
      (leadingIn es ++ gatheredIn es ++ joiningIn es).Perm (retiredIn es ++ regatheredIn es) ∧
      stats.requestCount + (regatheredIn es).length =
        stats.backendSends + stats.spaceCoalesced + stats.timeCoalesced := by
  intro stats es
  have hlinked := (linked_run calls ⟨a, .start s, j⟩).initial hrun
  have htallied := hlinked.tallied hok hpass (.of_new hnew)
  have hfolds : FoldsTold es stats := by
    refine hlinked.foldsTold hok hpass ?_
    rw [(Allocator.eq_of_new hnew).2]
    exact ⟨rfl, rfl⟩
  obtain ⟨delivered, -, htells⟩ := htallied.counters
  have hperm := parts_perm es
  -- every part is at most what left its port, so no counter stops short
  have hlength := hperm.length_eq
  have hgathered := (regatheredIn_sublist es).1.length_le
  have hjoining := (regatheredIn_sublist es).2.length_le
  have hleading := length_leadingIn es
  rw [List.length_append, List.length_append, List.length_append] at hlength
  have hfits : ∀ {count n : Nat}, count = min n maxWord → n ≤ (retiredIn es).length →
      count = n :=
    fun hcount hn => hcount.trans (Nat.min_eq_left (Nat.le_trans hn hretired))
  have hsends : stats.backendSends = (sentIn es).length := hfits htells.sent (by omega)
  have hspace := hfits hfolds.space (by omega)
  have htime := hfits hfolds.time (by omega)
  have hcount : stats.requestCount = (retiredIn es).length := hfits htells.retired (Nat.le_refl _)
  exact ⟨hsends.trans hleading.symm, hspace, htime, hcount, hperm, by omega⟩

end Runs

/-- A load goes out, and two loads of its line follow in one cycle; then two
lanes load another line. -/
def joinedPair : List (Call (Lanes × EchoMemory)) :=
  [.submit 0 0 (.load .read 7 64 4), .tick 0, .submit 1 1 (.load .read 8 64 4),
    .submit 1 2 (.load .read 9 72 4), .tick 1, .submit 2 0 (.load .read 10 128 4),
    .submit 2 1 (.load .read 11 128 4), .tick 2]

/-- Where the three lanes begin. -/
def joinedPairStart : Assembly (Recorded (Lanes × EchoMemory)) :=
  ⟨.ofConfig { numPorts := 3, requestLatency := 0, enableCoalescing := true },
    .start (Lanes.plain 3, EchoMemory.new false), .start .warn⟩

/-- Of five loads two go out, each of two grants gathers one, and two join the
first in flight: the one that was gathered before is counted for both. -/
theorem issues_counted_joinedPair :
    let stats := (endOf joinedPairStart (run joinedPair joinedPairStart)).allocator.stats
    stats.backendSends = 2 ∧ stats.spaceCoalesced = 2 ∧ stats.timeCoalesced = 2 ∧
      stats.requestCount = 5 ∧ stats.requestCount + 1 = 2 + 2 + 2 := by
  have hnew : Allocator.new { numPorts := 3, requestLatency := 0, enableCoalescing := true } =
      .ok joinedPairStart.allocator := by rfl
  obtain ⟨hsends, hspace, htime, hcount, -, htotal⟩ :=
    issues_counted hnew (Lanes.plain 3, EchoMemory.new false) (.start .warn) joinedPair
      List.prefix_rfl (by decide +kernel) (by decide +kernel) (by decide +kernel)
  have hsends := hsends.trans (show _ = 2 by decide +kernel)
  have hspace := hspace.trans (show _ = 2 by decide +kernel)
  have htime := htime.trans (show _ = 2 by decide +kernel)
  have htwice : (regatheredIn ((run joinedPair joinedPairStart).map (·.event))).length = 1 := by
    decide +kernel
  rw [hsends, hspace, htime] at htotal
  exact ⟨hsends, hspace, htime, hcount.trans (by decide +kernel), htwice ▸ htotal⟩

/-- **A transaction that is regathered is counted twice.**  The counter of
transactions that left their ports is not the sum of the counters of sends and
folds. -/
theorem not_counted_once : ¬ ∀ (config : AllocatorConfig) (a : Allocator),
    Allocator.new config = .ok a →
    ∀ (s : Lanes × EchoMemory) (j : Journal) (calls : List (Call (Lanes × EchoMemory))),
    Unbroken (run calls ⟨a, .start s, j⟩) → TicksPass (run calls ⟨a, .start s, j⟩) →
    (retiredIn ((run calls ⟨a, .start s, j⟩).map (·.event))).length ≤ maxWord →
    let stats := (endOf ⟨a, .start s, j⟩ (run calls ⟨a, .start s, j⟩)).allocator.stats
    stats.requestCount = stats.backendSends + stats.spaceCoalesced + stats.timeCoalesced := by
  intro hclaim
  have hnew : Allocator.new { numPorts := 3, requestLatency := 0, enableCoalescing := true } =
      .ok joinedPairStart.allocator := by rfl
  have hsum := hclaim _ _ hnew (Lanes.plain 3, EchoMemory.new false) (.start .warn) joinedPair
    (by decide +kernel) (by decide +kernel) (by decide +kernel)
  revert hsum
  decide +kernel

end MemPort
