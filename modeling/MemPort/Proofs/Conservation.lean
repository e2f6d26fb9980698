import MemPort.Bench.EchoMemory
import MemPort.Bench.Lanes
import MemPort.Proofs.Bookkeeping

/-!
# No transaction is lost or doubled

A transaction that was accepted is in one of three places: in the queue of its
port, behind a request in flight, or completed.  It moves from the first to the
second when it is sent or folded, and from the second to the third when the
answer of the request is handed out.

The memory may answer whatever it likes, in any order; an answer to no request
in flight fails and moves nothing.  Two failures do lose transactions, since the
request is no longer in flight when they are found: an answer that is too short,
and a lane that does not take its completion.

## Main definitions

* `Allocator.inFlight` — the transactions behind the requests in flight.
* `Failure.losesCompletion` — the two failures that lose transactions.

## Main results

* `conservation` — the three places make up what was accepted.

## References

`SPEC_FULL.md`, section 8, no silent drop.
-/

namespace MemPort

/-- The transactions behind the requests in flight. -/
def Books.inFlight (b : Books) : List Origin := b.outstanding.values.flatMap Coalesced.origins

/-- The transactions behind the requests in flight. -/
def Allocator.inFlight (a : Allocator) : List Origin := a.books.inFlight

/-- Whether a failure leaves transactions without a completion. -/
def Failure.losesCompletion : Failure → Bool
  | .invariant (.truncatedResponse ..) | .invariant (.deliveryRefused ..) => true
  | _ => false

/-- Whether a piece leaves transactions without a completion. -/
def Event.losesCompletion (e : Event) : Bool := e.failure?.any (·.losesCompletion)

/-! ### Requests in flight -/

namespace AscMap

theorem flatMap_values_erase {α β : Type} {m : AscMap α} {k : Nat} {v : α}
    (h : m.get? k = some v) (f : α → List β) :
    (m.values.flatMap f).Perm (f v ++ (m.erase k).values.flatMap f) := by
  have hperm := ((entries_erase_perm h).map (·.2)).flatMap_right f
  rwa [List.map_cons, List.flatMap_cons] at hperm

theorem flatMap_values_insert {α β : Type} (m : AscMap α) (k : Nat) (v : α)
    (f : α → List β) :
    ((m.insert k v).values.flatMap f).Perm (f v ++ (m.erase k).values.flatMap f) := by
  have hperm := ((entries_insert_perm m k v).map (·.2)).flatMap_right f
  rwa [List.map_cons, List.flatMap_cons] at hperm

end AscMap

/-- What is served joins the requests in flight. -/
theorem Booked.inFlight {b b' : Books} {e : Event} (h : Booked b e b') (hanswer : e.drained = []) :
    b'.inFlight.Perm (e.served.map (·.2) ++ b.inFlight) := by
  cases h with
  | accepted => exact .refl _
  | quiet hquiet =>
    rw [(Event.of_isQuiet hquiet).2.1]
    exact .refl _
  | answered => cases hanswer
  | @sent queued now granted request hfresh hqueued huniform =>
    have hperm := AscMap.flatMap_values_insert b.outstanding b.nextId request Coalesced.origins
    rw [AscMap.erase_of_get?_eq_none hfresh] at hperm
    rw [Event.served_sent, map_snd_pair]
    exact hperm
  | @folded queued now granted k request pending merged hpending hmerged hqueued huniform =>
    -- the joined request is taken out and put back with what joined it
    have hout := AscMap.flatMap_values_erase hpending Coalesced.origins
    have hin := AscMap.flatMap_values_insert b.outstanding k merged Coalesced.origins
    rw [(Coalesced.origins_absorb? hmerged).1] at hin
    rw [Event.served_folded, map_snd_pair]
    refine hin.trans ?_
    rw [List.append_assoc]
    refine List.perm_append_comm.trans ?_
    rw [List.append_assoc]
    exact (List.perm_append_comm.trans hout.symm).append_left request.origins

section Genuine

variable {σ : Type} [Requestors σ] [Backend σ]

/-- What is retired is in flight or completed. -/
def Accounts (es : List Event) (m : Assembly (Recorded σ)) : Prop :=
  ∃ done, (retiredIn es).Perm (m.allocator.inFlight ++ done) ∧
    List.Forall₂ Origin.Completes done m.surroundings.deliveries

/-- A piece that loses no completion keeps account of what is retired. -/
theorem Effect.accounts {m m' : Assembly (Recorded σ)} {e : Event} (h : Effect m m' e)
    {es : List Event} (hes : Accounts es m) (hlose : e.losesCompletion = false) :
    Accounts (es ++ [e]) m' := by
  obtain ⟨done, hretired, hdone⟩ := hes
  have hbooked := h.booked
  rw [Accounts, retiredIn_append, retiredIn_singleton]
  by_cases hanswer : e.drained = []
  · -- what left the queues is in flight now
    refine ⟨done, ?_, ?_⟩
    · have hin := hbooked.inFlight hanswer
      have hnew : (e.served.map (·.2) ++ retiredIn es).Perm
          (e.served.map (·.2) ++ (m.allocator.inFlight ++ done)) := hretired.append_left _
      rw [← List.append_assoc] at hnew
      exact List.perm_append_comm.trans (hnew.trans (hin.symm.append_right done))
    · rw [h.deliveries_eq hanswer]
      exact hdone
  · -- an answer was drained
    cases h with
    | @answered now response result backendPort hdrain ha hhanded hok =>
      have hbooks : m'.allocator.books = _ := hbooked.of_answered
      unfold Allocator.inFlight at hretired ⊢
      simp only [Event.served, List.map_nil, List.append_nil, hbooks]
      cases hhanded with
      | @all m' request ds hrequest hds hdeliveries =>
        -- the transactions behind the request are completed
        refine ⟨done ++ request.origins, ?_, ?_⟩
        · have hout := AscMap.flatMap_values_erase hrequest Coalesced.origins
          refine hretired.trans ((hout.append_right done).trans ?_)
          rw [List.append_assoc]
          refine List.perm_append_comm.trans ?_
          rw [List.append_assoc]
          exact .refl _
        · rw [hdeliveries]
          exact List.rel_append hdone (Coalesced.completes_fanOut hds)
      | nothing hrequest hdeliveries =>
        refine ⟨done, ?_, ?_⟩
        · have hsame : m.allocator.books.outstanding.erase response.id =
              m.allocator.books.outstanding := AscMap.erase_of_get?_eq_none hrequest
          rw [hsame]
          exact hretired
        · rw [hdeliveries]
          exact hdone
      | short _ _ _ => cases hlose
      | refused => cases hlose
      | broken => exact absurd rfl (hok _)
    | _ => exact absurd rfl hanswer

/-- Over a run that loses no completion, what is retired is in flight or
completed. -/
theorem Linked.accounts {m : Assembly (Recorded σ)} {ms : List (Moment σ)} (h : Linked m ms)
    (hok : Unbroken ms)
    (hlose : ∀ x ∈ ms, x.event.losesCompletion = false)
    (hstart : Accounts [] m) : Accounts (ms.map (·.event)) (endOf m ms) := by
  refine Linked.induct (P := fun pre m' => Accounts (pre.map (·.event)) m')
    (R := fun x => x.event.losesCompletion = false) hstart ?_ h hok hlose
  intro pre x hpre hx hokx hlosex
  rw [List.map_append]
  exact (effect_of_genuine hx hokx).accounts hpre hlosex

omit [Requestors σ] [Backend σ] in
/-- Before a run, nothing is retired, in flight or completed. -/
theorem accounts_start {config : AllocatorConfig} {a : Allocator}
    (hnew : Allocator.new config = .ok a) (s : σ) (j : Journal) :
    Accounts [] (⟨a, .start s, j⟩ : Assembly (Recorded σ)) := by
  refine ⟨[], ?_, .nil⟩
  unfold Allocator.inFlight
  rw [Allocator.books_new hnew]
  exact .refl _

theorem Allocator.eq_nil_of_isIdle {a : Allocator} (h : a.isIdle = true) :
    a.queued = [] ∧ a.inFlight = [] := by
  unfold isIdle at h
  simp only [Bool.and_eq_true] at h
  obtain ⟨⟨hout, -⟩, hports⟩ := h
  constructor
  · unfold queued
    rw [List.flatMap_eq_nil_iff]
    intro port _
    rw [List.map_eq_nil_iff]
    unfold queuedOn queuedIn
    cases hp : a.ports[port]? with
    | none => rfl
    | some p =>
      have hempty := List.all_eq_true.mp hports p (List.mem_of_getElem? hp)
      unfold TimedQueue.isEmpty at hempty
      rw [List.isEmpty_iff] at hempty
      rw [Option.map_some, Option.getD_some]
      unfold RequestorPort.queued
      rw [hempty, List.map_nil]
  · unfold AscMap.isEmpty at hout
    rw [List.isEmpty_iff] at hout
    unfold inFlight Books.inFlight AscMap.values books
    rw [hout]
    rfl

/-- **Every accepted transaction is in one place**: queued on its port, behind a
request in flight, or completed on its port by exactly one of the completions
that were handed out.  So once the allocator is idle, every accepted transaction
has been completed exactly once. -/
theorem conservation {config : AllocatorConfig} {a : Allocator}
    (hnew : Allocator.new config = .ok a) (s : σ) (j : Journal) (calls : List (Call σ))
    {ms : List (Moment σ)} (hrun : ms <+: run calls ⟨a, .start s, j⟩) (hok : Unbroken ms)
    (hlose : ∀ x ∈ ms, x.event.losesCompletion = false) :
    ∃ done, (acceptedIn (ms.map (·.event))).Perm
        ((endOf ⟨a, .start s, j⟩ ms).allocator.queued ++
          (endOf ⟨a, .start s, j⟩ ms).allocator.inFlight ++ done) ∧
      List.Forall₂ Origin.Completes done
        (endOf ⟨a, .start s, j⟩ ms).surroundings.deliveries ∧
      ((endOf ⟨a, .start s, j⟩ ms).allocator.isIdle = true →
        (acceptedIn (ms.map (·.event))).Perm done) := by
  have hlinked := (linked_run calls ⟨a, .start s, j⟩).initial hrun
  have hkept := hlinked.kept hok
  rw [Allocator.books_new hnew] at hkept
  obtain ⟨done, hretired, hdone⟩ := hlinked.accounts hok hlose (accounts_start hnew s j)
  generalize endOf _ ms = m at hkept hretired hdone ⊢
  have hall : (acceptedIn (ms.map (·.event))).Perm
      (m.allocator.queued ++ m.allocator.inFlight ++ done) := by
    -- the queues hold what was accepted and not retired
    have hsplit : (acceptedIn (ms.map (·.event))).Perm
        (retiredIn (ms.map (·.event)) ++ m.allocator.queued) := by
      refine Origin.perm_of_txnsOf fun port => ?_
      have hfifo := hkept.fifo port
      rw [Origin.txnsOf_append, Allocator.txnsOf_queued]
      rw [show m.allocator.queuedOn port = m.allocator.books.queued port from rfl, hfifo]
      exact .refl _
    refine hsplit.trans ((hretired.append_right _).trans ?_)
    rw [List.append_assoc m.allocator.queued]
    exact List.perm_append_comm
  refine ⟨done, hall, hdone, fun hidle => ?_⟩
  obtain ⟨hqueued, hflight⟩ := Allocator.eq_nil_of_isIdle hidle
  rw [hqueued, hflight] at hall
  exact hall

/-- Two lanes load the same line in the same cycle, and share the answer. -/
def sharedLoad : List (Call (Lanes × EchoMemory)) :=
  [.submit 0 0 (.load .read 7 64 4), .submit 0 1 (.load .read 8 72 4), .tick 0,
    .receive 1 ⟨0, List.replicate 64 5, true⟩, .tick 1]

/-- Where the two lanes begin. -/
def sharedLoadStart : Assembly (Recorded (Lanes × EchoMemory)) :=
  ⟨.ofConfig { numPorts := 2, requestLatency := 0, enableCoalescing := true },
    .start (Lanes.plain 2, EchoMemory.new false), .start .warn⟩

/-- The shared load ends with one completion for each lane. -/
theorem conservation_sharedLoad :
    Unbroken (run sharedLoad sharedLoadStart) ∧
    ∃ done, (acceptedIn ((run sharedLoad sharedLoadStart).map (·.event))).Perm done ∧
      List.Forall₂ Origin.Completes done
        [(0, ⟨7, .read, 64, [5, 5, 5, 5], true⟩),
          (1, ⟨8, .read, 72, [5, 5, 5, 5], true⟩)] := by
  refine ⟨by decide +kernel, ?_⟩
  have hnew : Allocator.new { numPorts := 2, requestLatency := 0, enableCoalescing := true } =
      .ok sharedLoadStart.allocator := by rfl
  obtain ⟨done, -, hdone, hidle⟩ := conservation hnew (Lanes.plain 2, EchoMemory.new false)
    (.start .warn) sharedLoad List.prefix_rfl (by decide +kernel) (by decide +kernel)
  have hdeliveries :
      (endOf sharedLoadStart (run sharedLoad sharedLoadStart)).surroundings.deliveries =
        [(0, ⟨7, .read, 64, [5, 5, 5, 5], true⟩),
          (1, ⟨8, .read, 72, [5, 5, 5, 5], true⟩)] := by
    decide +kernel
  rw [← hdeliveries]
  exact ⟨done, hidle (by decide +kernel), hdone⟩

end Genuine

end MemPort
