import MemPort.Allocator.Drain
import MemPort.Allocator.Issue
import MemPort.Allocator.Watchdog

/-!
# The entry points of an assembly

What the world outside an assembly may do with it: let a cycle pass, submit a
transaction, bring an answer or a retry of the memory, and perform an access at
once, outside the timing.

Every cycle drains answers before it issues requests, so what an answer frees
can be used in the same cycle.

## Main definitions

* `Assembly.tick` — a cycle.
* `Assembly.accessFunctional` — an access that bypasses the queues.
* `Assembly.submit`, `Assembly.receive`, `Assembly.backendRetry` — the entry
  points of the allocator, with their notices kept.

## Main results

* `Assembly.accessFunctional_eq_ok` — what has happened where an access at
  once goes through.

## References

`SPEC_FULL.md`, section 5: responses are drained before requests are issued;
section 10.6, item 2: the access at once.
-/

namespace MemPort

/-- The request number of functional accesses, which no timed request ever gets. -/
def functionalId : Nat := maxWord

namespace Assembly

variable {σ : Type}

/-- A requestor submits a transaction. -/
def submit (m : Assembly σ) (now port : Nat) (txn : Transaction) : Outcome σ Bool :=
  match m.allocator.submit now port txn with
  | .error a => .error (.assertion a) m
  | .ok l => .ok l.value.1 (({ m with allocator := l.value.2 } : Assembly σ).noteAll l.notices)

/-- The memory answers a request. -/
def receive (m : Assembly σ) (now : Nat) (response : BackendResponse) : Bool × Assembly σ :=
  let l := m.allocator.receive now response
  (l.value.1, ({ m with allocator := l.value.2 } : Assembly σ).noteAll l.notices)

/-- The memory takes requests again. -/
def backendRetry (m : Assembly σ) : Assembly σ :=
  let l := m.allocator.backendRetry
  ({ m with allocator := l.value } : Assembly σ).noteAll l.notices

variable [Requestors σ] [Backend σ]

/-- Let a cycle pass: drain answers, issue requests, check progress.  There must
be one requestor for every port. -/
def tick (m : Assembly σ) (now : Nat) : Outcome σ Unit :=
  if Requestors.lanes m.surroundings ≠ m.allocator.ports.length then
    .error (.assertion .requestorCount) m
  else
    match m.drain now with
    | .error e m => .error e m
    | .ok () m =>
        match m.issue now with
        | .error e m => .error e m
        | .ok () m => m.checkProgress now

/-- Perform an access at once, past queues, arbitration and coalescing.  An
exclusive access still invalidates the other lanes. -/
def accessFunctional (m : Assembly σ) (now port : Nat) (txn : Transaction) : Outcome σ Response :=
  if m.allocator.ports.length ≤ port then .error (.assertion (.functionalPort port)) m
  else
    match checkLineFit port txn m.allocator.config.lineSize with
    | .error v => .error (.invariant v) m
    | .ok () =>
        let m := m.note (.functional port txn)
        match m.broadcast? (txn.cmd.snoop? txn.addr txn.size port) with
        | .error e m => .error e m
        | .ok () m =>
            let request : BackendRequest :=
              ⟨functionalId, port, txn.cmd, txn.addr, txn.size, txn.data⟩
            match Backend.accessFunctional request m.surroundings with
            | .error a => .error (.assertion a) m
            | .ok l =>
                let m : Assembly σ :=
                  { m with surroundings := l.value.2, journal := m.journal.addAll l.notices }
                let m := (m.count .recordFunctional).update fun a => { a with lastActive := now }
                .ok (txn.completion l.value.1.data l.value.1.success) m

/-- An access at once that goes through keeps to its line.  The other lanes take
the news of an exclusive one, and then the memory performs it. -/
theorem accessFunctional_eq_ok {m m' : Assembly σ} {now port : Nat} {txn : Transaction}
    {response : Response} (h : m.accessFunctional now port txn = .ok response m') :
    checkLineFit port txn m.allocator.config.lineSize = .ok () ∧
      ∃ (m₁ : Assembly σ) (l : Logged (BackendResponse × σ)),
        (m.note (.functional port txn)).broadcast?
          (txn.cmd.snoop? txn.addr txn.size port) = .ok () m₁ ∧
        Backend.accessFunctional ⟨functionalId, port, txn.cmd, txn.addr, txn.size, txn.data⟩
          m₁.surroundings = .ok l ∧
        response = txn.completion l.value.1.data l.value.1.success ∧
        m' = (({ m₁ with surroundings := l.value.2, journal := m₁.journal.addAll l.notices } :
          Assembly σ).count .recordFunctional).update fun a => { a with lastActive := now } := by
  unfold accessFunctional at h
  split at h
  · cases h
  · split at h
    · cases h
    · rename_i hfit
      simp only at h
      split at h
      · cases h
      · rename_i m₁ htold
        split at h
        · cases h
        · rename_i l hperformed
          cases h
          exact ⟨hfit, m₁, l, htold, hperformed, rfl, rfl⟩

end Assembly

end MemPort
