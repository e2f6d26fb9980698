import MemPort.Failure
import MemPort.Notice

/-!
# The surroundings of the allocator

The allocator owns nothing on either side of it.  Its surroundings are a state
`σ` of any type that knows how to take completions, retries and snoops
(`Requestors`) and how to take requests (`Backend`).  A statement about every
`σ` with these two classes is a statement about every behaviour of the
requestors and of the memory.

A call to them can break a contract.  A requestor that does so has acted before
it noticed, so its answer brings the state it leaves behind (`Attempt`); a
memory notices at once, and nothing happens.

Two surroundings are put together from parts: a pair of requestors and a memory,
and `Recorded` surroundings, which keep the list of the calls made to them.

## Main definitions

* `Attempt` — the result of a call that may break a contract after it has
  acted.
* `Requestors`, `Backend` — the two sides.
* `Contact` — a call made to the surroundings, with the answer it got.
* `Recorded` — surroundings together with the calls made to them.

## References

`SPEC_FULL.md`, section 6: the contracts with the requestors and with the
memory.
-/

namespace MemPort

/-- The result of a call that may break a contract.  Either way it leaves a
state behind. -/
abbrev Attempt (σ α : Type) := Logged (Except Assertion α × σ)

/-- The requestors of an allocator, numbered from zero. -/
class Requestors (σ : Type) where
  /-- The number of lanes. -/
  lanes : σ → Nat
  /-- Hand a completion to a lane.  The answer says whether the lane took it. -/
  deliver : Nat → Response → σ → Attempt σ Bool
  /-- Tell a lane that it may repeat a refused submission. -/
  notifyRetry : Nat → σ → Logged σ
  /-- Tell a lane of an exclusive access of another. -/
  receiveSnoop : Nat → Snoop → σ → Attempt σ Unit

/-- The memory downstream. -/
class Backend (σ : Type) where
  /-- Offer a request.  The answer says whether the memory took it; after a
  refusal it owes the allocator a retry. -/
  accept : Nat → BackendRequest → σ → Except Assertion (Logged (Bool × σ))
  /-- There is room again for an answer that was refused. -/
  notifyResponseRetry : σ → Logged σ
  /-- Perform an access at once. -/
  accessFunctional : BackendRequest → σ → Except Assertion (Logged (BackendResponse × σ))

/-! ### Requestors beside a memory -/

section Pair

variable {ρ β : Type}

instance [Requestors ρ] : Requestors (ρ × β) where
  lanes s := Requestors.lanes s.1
  deliver port response s :=
    (Requestors.deliver port response s.1).map fun r => (r.1, (r.2, s.2))
  notifyRetry port s := (Requestors.notifyRetry port s.1).map fun r => (r, s.2)
  receiveSnoop port snoop s :=
    (Requestors.receiveSnoop port snoop s.1).map fun r => (r.1, (r.2, s.2))

instance [Backend β] : Backend (ρ × β) where
  accept now request s :=
    (Backend.accept now request s.2).map fun l => l.map fun r => (r.1, (s.1, r.2))
  notifyResponseRetry s := (Backend.notifyResponseRetry s.2).map fun b => (s.1, b)
  accessFunctional request s :=
    (Backend.accessFunctional request s.2).map fun l => l.map fun r => (r.1, (s.1, r.2))

end Pair

/-! ### Recorded surroundings -/

/-- A call made to the surroundings, with the answer it got. -/
inductive Contact where
  /-- A request was offered, and accepted or refused. -/
  | offered (request : BackendRequest) (accepted : Bool)
  /-- A completion was handed to a lane, and taken or not. -/
  | delivered (port : Nat) (response : Response) (taken : Bool)
  /-- A lane was told to try again. -/
  | retried (port : Nat)
  /-- A lane was told of an exclusive access. -/
  | snooped (port : Nat) (snoop : Snoop)
  /-- The memory was told to offer its answer again. -/
  | responseRetried
  /-- An access was performed at once. -/
  | performed (request : BackendRequest) (response : BackendResponse)
  deriving DecidableEq, Repr

/-- Surroundings with the calls made to them. -/
structure Recorded (σ : Type) where
  /-- The surroundings. -/
  inner : σ
  /-- The calls, newest first. -/
  contacts : List Contact

namespace Recorded

variable {σ : Type}

/-- Surroundings to which no call has been made. -/
def start (s : σ) : Recorded σ := ⟨s, []⟩

/-- The calls in the order in which they were made. -/
def history (s : Recorded σ) : List Contact := s.contacts.reverse

instance [Requestors σ] : Requestors (Recorded σ) where
  lanes s := Requestors.lanes s.inner
  deliver port response s :=
    (Requestors.deliver port response s.inner).map fun r =>
      (r.1, ⟨r.2, .delivered port response (r.1.toOption == some true) :: s.contacts⟩)
  notifyRetry port s :=
    (Requestors.notifyRetry port s.inner).map fun r => ⟨r, .retried port :: s.contacts⟩
  receiveSnoop port snoop s :=
    (Requestors.receiveSnoop port snoop s.inner).map fun r =>
      (r.1, ⟨r.2, .snooped port snoop :: s.contacts⟩)

instance [Backend σ] : Backend (Recorded σ) where
  accept now request s :=
    (Backend.accept now request s.inner).map fun l => l.map fun r =>
      (r.1, ⟨r.2, .offered request r.1 :: s.contacts⟩)
  notifyResponseRetry s :=
    (Backend.notifyResponseRetry s.inner).map fun r => ⟨r, .responseRetried :: s.contacts⟩
  accessFunctional request s :=
    (Backend.accessFunctional request s.inner).map fun l => l.map fun r =>
      (r.1, ⟨r.2, .performed request r.1 :: s.contacts⟩)

end Recorded

end MemPort
