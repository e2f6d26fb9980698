import MemPort.Proofs.Effects

/-!
# Answers of the memory

The allocator keeps the answers that it took from the memory in a queue, and
drains them in the order in which it took them.  Nothing is handed out to the
requestors but by draining an answer.

## Main definitions

* `Allocator.answers` — the answers that wait.
* `Event.taken`, `Event.drained` — the answer that was taken, or drained.

## Main results

* `Linked.answers_eq` — answers are drained in the order in which they were
  taken.
* `Effect.deliveries_eq` — without an answer, nothing is handed out.

## References

`SPEC_FULL.md`, section 4.5: responses are drained in the order of their queue.
-/

namespace MemPort

namespace Event

/-- The answer that the allocator took from the memory. -/
def taken : Event → List BackendResponse
  | received _ response true => [response]
  | _ => []

/-- The answer that was drained. -/
def drained : Event → List BackendResponse
  | answered _ response _ => [response]
  | _ => []

theorem answers_of_peripheral {e : Event} (h : e.isPeripheral = true) :
    e.taken = [] ∧ e.drained = [] := by
  unfold isPeripheral at h
  split at h <;> first | exact ⟨rfl, rfl⟩ | cases h

end Event

/-- The answers that were taken, in order. -/
def takenIn (es : List Event) : List BackendResponse := es.flatMap Event.taken

/-- The answers that were drained, in order. -/
def drainedIn (es : List Event) : List BackendResponse := es.flatMap Event.drained

theorem drainedIn_append (es : List Event) (e : Event) :
    drainedIn (es ++ [e]) = drainedIn es ++ e.drained := by
  unfold drainedIn
  rw [List.flatMap_append, List.flatMap_singleton]

/-- The answers that wait to be drained, oldest first. -/
def Allocator.answers (a : Allocator) : List BackendResponse :=
  a.backendPort.responses.entries.map (·.payload)

namespace Allocator

theorem answers_receive {a a' : Allocator} {now : Nat} {response : BackendResponse} {taken : Bool}
    (h : (a.receive now response).value = (taken, a')) :
    a'.answers = a.answers ++ if taken then [response] else [] := by
  unfold receive at h
  simp only at h
  unfold BackendPort.receive at h
  cases hpush : a.backendPort.responses.push? now response with
  | none =>
    rw [hpush] at h
    cases h
    -- a full queue is left as it was
    exact (List.append_nil _).symm
  | some responses =>
    rw [hpush] at h
    obtain ⟨rfl, rfl⟩ := Prod.mk.inj h
    -- the payloads of the queue grow by the response pushed, at its back
    have hentries := congrArg (List.map (·.payload)) (TimedQueue.entries_push? hpush).1
    rw [List.map_append] at hentries
    exact hentries

/-- A drained answer was the first of those that wait. -/
theorem answers_drain? {a : Allocator} {now : Nat} {response : BackendResponse}
    {port : BackendPort} (h : a.backendPort.drain? now = some (response, port)) :
    a.answers = response :: ({ a with backendPort := port } : Allocator).answers := by
  unfold BackendPort.drain? at h
  obtain ⟨⟨e, q⟩, hpop, heq⟩ := Option.map_eq_some_iff.mp h
  cases heq
  unfold answers
  rw [(TimedQueue.entries_pop? hpop).1, List.map_cons]

end Allocator

section Genuine

variable {σ : Type} [Requestors σ] [Backend σ]

/-- What is taken joins the answers that wait at the end, and what is drained
leaves them at the front, unless the memory calls by itself. -/
theorem Effect.answers_eq {m m' : Assembly (Recorded σ)} {e : Event} (h : Effect m m' e)
    (helapsed : e = .elapsed → m'.allocator = m.allocator) :
    m.allocator.answers ++ e.taken = e.drained ++ m'.allocator.answers := by
  by_cases hperipheral : e.isPeripheral = true
  · obtain ⟨ports, locks, stats, _, _, -, ha⟩ := h.frame hperipheral
    obtain ⟨htaken, hdrained⟩ := Event.answers_of_peripheral hperipheral
    rw [htaken, hdrained, ha]
    exact List.append_nil _
  -- only what the memory offers joins the queue, and only draining takes from it
  cases h with
  | @received now response taken ha _ =>
    have hanswers := Allocator.answers_receive ha
    cases taken <;> exact hanswers.symm
  | resumed ha _ =>
    rw [ha]
    exact List.append_nil _
  | elapsed _ _ =>
    rw [helapsed rfl]
    exact List.append_nil _
  | answered hdrain ha _ _ =>
    obtain ⟨stats, lastActive, ha⟩ := ha
    rw [ha, Allocator.answers_drain? hdrain]
    exact List.append_nil _
  | settled ha _ =>
    rw [ha]
    exact List.append_nil _
  | turned _ _ h =>
    cases h with
    | @served m₁ _ _ _ _ _ hcleared _ hserved =>
      have hsame : m'.allocator.backendPort.responses = m₁.allocator.backendPort.responses := by
        cases hserved with
        | refused h =>
          obtain ⟨stats, ha⟩ := h.allocator
          rw [ha]
        | sent h _ =>
          obtain ⟨ports, stats, locks, -, ha⟩ := h.allocator
          rw [ha]
        | folded h _ =>
          obtain ⟨pending, merged, ports, stats, -, -, ha⟩ := h.allocator
          rw [ha]
        | _ => exact absurd rfl hperipheral
      unfold Allocator.answers
      rw [hsame, hcleared.backendPort_eq]
      exact List.append_nil _
    | _ => exact absurd rfl hperipheral
  | _ => exact absurd rfl hperipheral

/-- **Answers are drained in the order in which they were taken.** -/
theorem Linked.answers_eq {m : Assembly (Recorded σ)} {ms : List (Moment σ)} (h : Linked m ms)
    (hok : Unbroken ms)
    (helapsed : ∀ x ∈ ms, x.event = .elapsed → x.after.allocator = x.before.allocator) :
    m.allocator.answers ++ takenIn (ms.map (·.event)) =
      drainedIn (ms.map (·.event)) ++ (endOf m ms).allocator.answers := by
  refine Linked.induct (P := fun pre m' => m.allocator.answers ++ takenIn (pre.map (·.event)) =
      drainedIn (pre.map (·.event)) ++ m'.allocator.answers)
    (R := fun x => x.event = .elapsed → x.after.allocator = x.before.allocator)
    (List.append_nil _) ?_ h hok helapsed
  intro pre x hpre hx hokx helapsedx
  have hstep := (effect_of_genuine hx hokx).answers_eq helapsedx
  unfold takenIn drainedIn at hpre ⊢
  rw [List.map_append, List.flatMap_append, List.flatMap_append, List.map_singleton,
    List.flatMap_singleton, List.flatMap_singleton, ← List.append_assoc, hpre, List.append_assoc,
    hstep, List.append_assoc]

/-- Without an answer, nothing is handed out. -/
theorem Effect.deliveries_eq {m m' : Assembly (Recorded σ)} {e : Event} (h : Effect m m' e)
    (hanswer : e.drained = []) : m'.surroundings.deliveries = m.surroundings.deliveries := by
  cases h with
  | submitted _ _ hs => rw [hs]
  | received _ hs => rw [hs]
  | resumed _ hs => rw [hs]
  -- a functional access only sends snoops, and a snoop is not a delivery
  | performed _ hs =>
    obtain ⟨s, l, hnotified, hl, hs, -⟩ := hs
    rw [hs, deliveries_accessFunctional hl, hnotified.deliveries_eq]
  | rejected h => rw [h]
  | elapsed _ hs => exact Recorded.deliveries_congr hs
  -- the one event that delivers answers in flight is excluded by `hanswer`
  | answered _ _ _ _ => cases hanswer
  | settled _ hs =>
    rcases hs with hs | hs
    · rw [hs]
    · rw [hs, deliveries_notifyResponseRetry]
  | swept _ _ hs => rw [hs]
  | checked _ hs => rw [hs]
  | turned _ hok h =>
    cases h with
    | idle _ => rfl
    | parked _ _ _ _ hs => rw [hs]
    | spilled hcleared _ _ _ => rw [hcleared.surroundings]
    -- the checks before the offer reach no requestor; what is left is the offer
    | served hcleared _ hserved =>
      rw [← hcleared.surroundings]
      cases hserved with
      | broken a => exact absurd rfl (hok a)
      | duplicate _ h _ => rw [h]
      | refused h =>
        obtain ⟨notices, haccept⟩ := h.refused
        exact (accept_recorded haccept).1
      | sent h _ =>
        obtain ⟨s, notices, haccept, hnotified⟩ := h.accepted
        rw [hnotified.deliveries_eq, (accept_recorded haccept).1]
      | folded h _ => exact h.surroundings.deliveries_eq

end Genuine

end MemPort
