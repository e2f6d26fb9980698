import MemPort.Allocator.Issue

/-!
# How often the issue loop goes round

The guard of the issue loop does not bound it.  A turn that parks a port or
folds its head into a load in flight spends nothing of the budget, and a lock
that is dropped lets every parked port try again.  What falls with every
iteration is a pair: the number of queued transactions, and among equals of
these the number of unparked ports.  A turn that parks its port leaves the
queues alone and one port fewer unparked.  A turn that drops a lock goes on to
serve its head, so it takes a transaction from a queue or it is the last one.

## Main definitions

* `LoopState` — the issue loop where its guard is read.
* `LoopState.load` — the pair that falls.
* `LoopState.iterate` — one iteration, and `LoopState.iterations`, a number of
  them.

## Main results

* `LoopState.iterate_goesOn` — what an iteration does that does not leave the
  loop.
* `LoopState.iterations_eq_some` — more iterations than the allocator weighs
  are enough.
* `issue_iterations` — the issue path of a cycle ends, whatever the requestors
  and the memory do.

## References

`SPEC_FULL.md`, section 4.4: the loop of the issue path.
-/

namespace MemPort

/-- The issue loop where its guard is read. -/
structure LoopState (σ : Type) where
  /-- The part of the budget that is spent. -/
  issued : Nat
  /-- The assembly. -/
  assembly : Assembly σ

namespace LoopState

variable {σ : Type}

/-- What the iterations to come have to work on: queued transactions, and
unparked ports. -/
def load (s : LoopState σ) : Nat × Nat :=
  (s.assembly.allocator.waiting, s.assembly.allocator.unparked)

/-- Whether the guard ends the loop: the memory is busy, or the budget is spent. -/
def isOver (s : LoopState σ) : Bool :=
  s.assembly.allocator.backendPort.busy ||
    s.assembly.allocator.config.maxIssuePerCycle ≤ s.issued

section Iterations

variable [Requestors σ] [Backend σ]

/-- One iteration: what the loop comes to if it is left here, else the turn that
was taken and where the guard is read next. -/
def iterate (now : Nat) (s : LoopState σ) : Outcome σ Unit ⊕ Turn × LoopState σ :=
  if s.isOver then .inl (.ok () s.assembly)
  else
    match s.assembly.issueTurn now with
    | .error e m => .inl (.error e m)
    | .ok turn m =>
        if turn.goesOn then .inr (turn, ⟨s.issued + turn.cost, m⟩) else .inl (.ok () m)

/-- What the loop comes to within a number of iterations, if it is left within
them. -/
def iterations (now : Nat) : Nat → LoopState σ → Option (Outcome σ Unit)
  | 0, _ => none
  | n + 1, s =>
      match s.iterate now with
      | .inl r => some r
      | .inr (_, t) => t.iterations now n

/-- What the loop comes to. -/
def outcome (now : Nat) (s : LoopState σ) : Outcome σ Unit := s.assembly.issueLoop now s.issued

/-- The loop is its first iteration, followed by the loop where it goes on. -/
theorem outcome_eq_iterate (now : Nat) (s : LoopState σ) :
    s.outcome now = match s.iterate now with
      | .inl r => r
      | .inr (_, t) => t.outcome now := by
  unfold outcome iterate isOver
  rw [Assembly.issueLoop]
  split
  · rfl
  · split
    · rename_i hturn
      rw [hturn]
    · rename_i turn m hturn
      rw [hturn]
      simp only
      split
      · rfl
      · rfl

/-- An iteration that does not leave the loop takes a turn after which the loop
goes on. -/
theorem turn_of_iterate {now : Nat} {s t : LoopState σ} {turn : Turn}
    (h : s.iterate now = .inr (turn, t)) :
    s.assembly.issueTurn now = .ok turn t.assembly ∧ turn.goesOn = true ∧
      t.issued = s.issued + turn.cost := by
  unfold iterate at h
  split at h
  · cases h
  · split at h
    · cases h
    · rename_i hturn
      split at h
      · rename_i hon
        cases h
        exact ⟨hturn, hon, rfl⟩
      · cases h

omit [Requestors σ] [Backend σ] in
/-- A step that leaves less to do lowers the load. -/
theorem load_lt {s t : LoopState σ} (h : Assembly.Descends s.assembly t.assembly) :
    Prod.Lex (· < ·) (· < ·) t.load s.load := by
  obtain ⟨-, hlt | ⟨heq, hlt⟩⟩ := h
  · exact Prod.Lex.left _ _ hlt
  · unfold load
    rw [heq]
    exact Prod.Lex.right _ hlt

/-- **An iteration lowers the load or leaves the loop.**  One that parks no port
takes transactions from their queues, and only one that sends a request spends
from the budget. -/
theorem iterate_goesOn {now : Nat} {s t : LoopState σ} {turn : Turn}
    (h : s.iterate now = .inr (turn, t)) :
    Prod.Lex (· < ·) (· < ·) t.load s.load ∧
      ((∃ port, turn = .parked port) ∨ t.load.1 < s.load.1) ∧
      t.issued = s.issued + turn.cost := by
  obtain ⟨hturn, hon, hissued⟩ := turn_of_iterate h
  refine ⟨load_lt (Assembly.descends_issueTurn hturn hon), ?_, hissued⟩
  rcases Assembly.drained_or_parked_issueTurn hturn hon with hdrained | ⟨hparked, -⟩
  · exact Or.inr hdrained.1
  · exact Or.inl hparked

/-- More iterations than the allocator weighs are enough. -/
theorem iterations_eq_some {now n : Nat} {s : LoopState σ} (h : s.assembly.allocator.weight < n) :
    s.iterations now n = some (s.outcome now) := by
  -- the weight falls with every iteration, and one of the number is used up
  induction n generalizing s with
  | zero => exact absurd h (Nat.not_lt_zero _)
  | succ n ih =>
    rw [outcome_eq_iterate]
    unfold iterations
    cases hit : s.iterate now with
    | inl r => rfl
    | inr next =>
      obtain ⟨turn, t⟩ := next
      obtain ⟨hturn, hon, -⟩ := turn_of_iterate hit
      have hlt := Assembly.weight_issueTurn_lt hturn hon
      exact ih (by omega)

end Iterations

end LoopState

/-! ### The issue path of a cycle -/

/-- The sweep of expired locks moves no transaction, though it may unpark every
port. -/
theorem Assembly.sweepLocks_keeps {σ : Type} (m : Assembly σ) (now : Nat) :
    (m.sweepLocks now).allocator.waiting = m.allocator.waiting ∧
      (m.sweepLocks now).allocator.ports.length = m.allocator.ports.length := by
  obtain ⟨-, ha | ⟨-, ha⟩⟩ := m.sweepLocks_cases now
  · obtain ⟨hwaiting, hlength, -⟩ := releaseLocks_keeps m (m.allocator.locks.expire now).1
    rw [ha]
    exact ⟨hwaiting, hlength⟩
  · rw [ha]
    exact ⟨rfl, rfl⟩

/-- A bound on the weight that the issue path of a cycle begins with, whatever
the sweep unparks. -/
theorem Assembly.weight_sweepLocks_le {σ : Type} (m : Assembly σ) (now : Nat) :
    (m.sweepLocks now).allocator.weight ≤
      m.allocator.waiting * (m.allocator.ports.length + 1) + m.allocator.ports.length := by
  obtain ⟨hwaiting, hlength⟩ := m.sweepLocks_keeps now
  have hunparked := unparked_le (m.sweepLocks now).allocator
  unfold Allocator.weight
  rw [hwaiting, hlength]
  rw [hlength] at hunparked
  exact Nat.add_le_add_left hunparked _

/-- **The issue loop ends**, in every state, in every cycle and for every
budget, whatever the requestors and the memory do.  Each iteration leaves the
loop or lowers the pair of queued transactions and unparked ports.  With `w`
queued transactions and `p` ports, the issue path of a cycle takes at most
`w * (p + 1) + p + 1` iterations, counting the one that leaves. -/
theorem issue_iterations {σ : Type} [Requestors σ] [Backend σ] (now : Nat) :
    (∀ s : LoopState σ,
      match s.iterate now with
      | .inl r => s.outcome now = r
      | .inr (turn, t) =>
          s.outcome now = t.outcome now ∧
            Prod.Lex (· < ·) (· < ·) t.load s.load ∧
            ((∃ port, turn = .parked port) ∨ t.load.1 < s.load.1) ∧
            t.issued = s.issued + turn.cost) ∧
      ∀ m : Assembly σ,
        LoopState.iterations now
          (m.allocator.waiting * (m.allocator.ports.length + 1) + m.allocator.ports.length + 1)
          ⟨0, m.sweepLocks now⟩ = some (m.issue now) := by
  refine ⟨fun s => ?_, fun m => ?_⟩
  · have houtcome := s.outcome_eq_iterate now
    split
    · rename_i r hit
      rw [houtcome, hit]
    · rename_i turn t hit
      rw [hit] at houtcome
      exact ⟨houtcome, LoopState.iterate_goesOn hit⟩
  · exact LoopState.iterations_eq_some (Nat.lt_succ_of_le (m.weight_sweepLocks_le now))

end MemPort
