import MemPort.Surroundings
import MemPort.TimedQueue

/-!
# The backend port

The allocator's channel to the memory.  Requests go straight through; a refusal
makes the port busy until the memory calls back.  Answers wait for the response
latency in a bounded queue before the allocator may drain them; a memory that
finds the queue full is owed a retry.

## Main definitions

* `BackendPort` — the queue of answers with the two flags `busy` and
  `needRetry`.
* `BackendPort.send` — offer a request to the memory.
* `BackendPort.receive`, `BackendPort.drain?` — arrival and departure of
  answers.

## References

`SPEC_FULL.md`, section 4.2; section 10.6, item 1: the retry that is owed to the
memory.
-/

namespace MemPort

/-- The channel to the memory. -/
structure BackendPort where
  /-- The answers that wait to be drained. -/
  responses : TimedQueue BackendResponse
  /-- Whether the memory refused a request and has not called back. -/
  busy : Bool
  /-- Whether an answer was refused and the memory is owed a retry. -/
  needRetry : Bool

namespace BackendPort

/-- A port without answers, without the check of its storage. -/
def ofLatency (latency : Nat) : BackendPort := ⟨.ofConfig (.pipelined latency), false, false⟩

/-- A port without answers whose queue is a pipeline of `latency` stages. -/
def new (latency : Nat) : Except Assertion BackendPort :=
  (TimedQueue.new (.pipelined latency)).map fun responses => ⟨responses, false, false⟩

/-- The number of answers that wait. -/
def pending (p : BackendPort) : Nat := p.responses.length

/-- Offer a request to the memory, unless it is known to be busy. -/
def send {σ : Type} [Backend σ] (p : BackendPort) (now : Nat)
    (request : BackendRequest) (s : σ) :
    Except Assertion (Logged (Bool × BackendPort × σ)) :=
  if p.busy then .ok (.quiet (false, p, s))
  else
    (Backend.accept now request s).map fun l => l.andThen fun r =>
      if r.1 then .quiet (true, p, r.2)
      else ⟨(false, { p with busy := true }, r.2), [.backendRefused request.id]⟩

/-- A memory that is known to be busy is not asked; else it accepts the request
or refuses it. -/
theorem send_eq_ok {σ : Type} [Backend σ] {p : BackendPort} {now : Nat}
    {request : BackendRequest} {s : σ}
    {answer : Logged (Bool × BackendPort × σ)} (h : p.send now request s = .ok answer) :
    answer = .quiet (false, p, s) ∨ ∃ notices,
      Backend.accept now request s = .ok ⟨(answer.value.1, answer.value.2.2), notices⟩ := by
  unfold send at h
  split at h
  · cases h
    exact Or.inl rfl
  · cases haccept : Backend.accept now request s with
    | error a =>
      rw [haccept] at h
      cases h
    | ok l =>
      obtain ⟨⟨accepted, t⟩, notices⟩ := l
      rw [haccept] at h
      cases h
      refine Or.inr ⟨notices, ?_⟩
      cases accepted <;> rfl

/-- The memory takes requests again. -/
def onRetry (p : BackendPort) : BackendPort := { p with busy := false }

/-- Take an answer of the memory, or remember that it was refused. -/
def receive (p : BackendPort) (now : Nat) (response : BackendResponse) :
    Logged (Bool × BackendPort) :=
  match p.responses.push? now response with
  | some responses => .quiet (true, { p with responses })
  | none => ⟨(false, { p with needRetry := true }), [.responseQueueFull response.id]⟩

/-- Remove the oldest answer, once it has spent its latency. -/
def drain? (p : BackendPort) (now : Nat) : Option (BackendResponse × BackendPort) :=
  (p.responses.pop? now).map fun r => (r.1.payload, { p with responses := r.2 })

/-- Settle the debt of a retry, and say whether there was one. -/
def takeRetry (p : BackendPort) : Bool × BackendPort :=
  (p.needRetry, { p with needRetry := false })

/-- A drained answer was pending. -/
theorem pending_drain? {p p' : BackendPort} {now : Nat} {r : BackendResponse}
    (h : p.drain? now = some (r, p')) :
    p.pending = p'.pending + 1 ∧ p'.busy = p.busy ∧ p'.needRetry = p.needRetry := by
  obtain ⟨⟨e, q⟩, hq, he⟩ := Option.map_eq_some_iff.mp h
  cases he
  exact ⟨TimedQueue.length_pop? hq, rfl, rfl⟩

end BackendPort

end MemPort
