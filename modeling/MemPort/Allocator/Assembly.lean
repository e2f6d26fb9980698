import MemPort.Allocator.Basic

/-!
# An allocator among its surroundings

Every step of the allocator that calls a requestor or the memory acts on an
`Assembly`: the allocator, its surroundings and the journal.  The calls
themselves are here, and so are the changes that several steps share: retiring
heads and broadcasting a snoop.

## Main definitions

* `Assembly` — allocator, surroundings and journal.
* `Outcome` — the result of a step that may fail; either way the assembly it
  leaves behind is kept.
* `Assembly.settle` — keep what a call to the requestors leaves behind.
* `Assembly.retireHeads` — remove the heads behind a request, and wake refused
  requestors.
* `Assembly.broadcast` — tell every other lane of an exclusive access.

## Main results

* `waiting_retireHead`, `waiting_retireHeads_lt` — retiring shortens the
  queues.

## References

`SPEC_FULL.md`, section 4.4, step 5: heads are popped and snoops broadcast;
section 4.1: the retry that a popped head releases.
-/

namespace MemPort

/-- An allocator among its surroundings. -/
structure Assembly (σ : Type) where
  /-- The allocator. -/
  allocator : Allocator
  /-- The requestors and the memory. -/
  surroundings : σ
  /-- The notices kept so far. -/
  journal : Journal

/-- The result of a step that may fail.  Either way it leaves an assembly behind. -/
abbrev Outcome (σ α : Type) := EStateM.Result Failure (Assembly σ) α

namespace Assembly

variable {σ : Type}

/-- Keep a notice. -/
def note (m : Assembly σ) (n : Notice) : Assembly σ := { m with journal := m.journal.add n }

/-- Keep several notices. -/
def noteAll (m : Assembly σ) (ns : List Notice) : Assembly σ :=
  { m with journal := m.journal.addAll ns }

/-- Change the allocator. -/
def update (m : Assembly σ) (f : Allocator → Allocator) : Assembly σ :=
  { m with allocator := f m.allocator }

/-- Change the counters. -/
def count (m : Assembly σ) (f : Counters → Counters) : Assembly σ := m.update (·.count f)

@[simp] theorem allocator_note (m : Assembly σ) (n : Notice) :
    (m.note n).allocator = m.allocator := rfl

@[simp] theorem allocator_noteAll (m : Assembly σ) (ns : List Notice) :
    (m.noteAll ns).allocator = m.allocator := rfl

@[simp] theorem allocator_update (m : Assembly σ) (f : Allocator → Allocator) :
    (m.update f).allocator = f m.allocator := rfl

theorem allocator_count (m : Assembly σ) (f : Counters → Counters) :
    (m.count f).allocator = m.allocator.count f := rfl

@[simp] theorem ports_count (m : Assembly σ) (f : Counters → Counters) :
    (m.count f).allocator.ports = m.allocator.ports := rfl

@[simp] theorem surroundings_note (m : Assembly σ) (n : Notice) :
    (m.note n).surroundings = m.surroundings := rfl

@[simp] theorem surroundings_update (m : Assembly σ) (f : Allocator → Allocator) :
    (m.update f).surroundings = m.surroundings := rfl

/-! ### Calls to the requestors -/

/-- Keep what a call to the surroundings leaves behind, whether or not it broke
a contract. -/
def settle {α : Type} (m : Assembly σ) (call : Attempt σ α) : Outcome σ α :=
  let m : Assembly σ :=
    { m with surroundings := call.value.2, journal := m.journal.addAll call.notices }
  match call.value.1 with
  | .error a => .error (.assertion a) m
  | .ok answer => .ok answer m

/-- A call that breaks no contract is answered, and leaves its surroundings and
notices behind. -/
theorem settle_eq_ok {α : Type} {m m' : Assembly σ} {call : Attempt σ α} {answer : α}
    (h : m.settle call = .ok answer m') :
    call.value.1 = .ok answer ∧
      m' = { m with surroundings := call.value.2, journal := m.journal.addAll call.notices } := by
  unfold settle at h
  simp only at h
  split at h
  · cases h
  · rename_i hanswer
    cases h
    exact ⟨hanswer, rfl⟩

/-- A call to the surroundings leaves the allocator alone. -/
theorem allocator_settle {α : Type} {m m' : Assembly σ} {call : Attempt σ α} {answer : α}
    (h : m.settle call = .ok answer m') : m'.allocator = m.allocator := by
  rw [(settle_eq_ok h).2]

section Requestors

variable [Requestors σ]

/-- Hand a completion to a lane. -/
def deliver (m : Assembly σ) (port : Nat) (response : Response) : Outcome σ Bool :=
  m.settle (Requestors.deliver port response m.surroundings)

/-- Tell a lane to try again. -/
def notifyRetry (m : Assembly σ) (port : Nat) : Assembly σ :=
  let l := Requestors.notifyRetry port m.surroundings
  { m with surroundings := l.value, journal := m.journal.addAll l.notices }

/-- Tell a lane of an exclusive access. -/
def sendSnoop (m : Assembly σ) (lane : Nat) (snoop : Snoop) : Outcome σ Unit :=
  m.settle (Requestors.receiveSnoop lane snoop m.surroundings)

@[simp] theorem allocator_notifyRetry (m : Assembly σ) (port : Nat) :
    (m.notifyRetry port).allocator = m.allocator := rfl

/-! ### Broadcast -/

/-- Tell lanes of an exclusive access, one after the other, and say so. -/
def snoopLanes (m : Assembly σ) (snoop : Snoop) : List Nat → Outcome σ Unit
  | [] => .ok () m
  | lane :: rest =>
      match (m.note (.snooping lane snoop)).sendSnoop lane snoop with
      | .error e m => .error e m
      | .ok () m => m.snoopLanes snoop rest

/-- Tell every lane but the one that made it of an exclusive access. -/
def broadcast (m : Assembly σ) (snoop : Snoop) : Outcome σ Unit :=
  let lanes := Requestors.lanes m.surroundings
  match m.snoopLanes snoop ((List.range lanes).filter (· != snoop.source)) with
  | .error e m => .error e m
  | .ok () m => .ok () (m.count (.recordSnoops (lanes - 1)))

/-- Broadcast the snoop of an access, if it causes one. -/
def broadcast? (m : Assembly σ) : Option Snoop → Outcome σ Unit
  | none => .ok () m
  | some snoop => m.broadcast snoop

theorem allocator_snoopLanes {m m' : Assembly σ} {snoop : Snoop} {lanes : List Nat}
    (h : m.snoopLanes snoop lanes = .ok () m') : m'.allocator = m.allocator := by
  induction lanes generalizing m with
  | nil => cases h; rfl
  | cons lane rest ih =>
    unfold snoopLanes at h
    split at h
    · cases h
    · rename_i m₁ hsent
      rw [ih h, allocator_settle hsent]
      rfl

theorem ports_broadcast {m m' : Assembly σ} {snoop : Snoop} (h : m.broadcast snoop = .ok () m') :
    m'.allocator.ports = m.allocator.ports := by
  unfold broadcast at h
  simp only at h
  split at h
  · cases h
  · rename_i m₁ hlanes
    cases h
    rw [ports_count, allocator_snoopLanes hlanes]

theorem ports_broadcast? {m m' : Assembly σ} {snoop : Option Snoop}
    (h : m.broadcast? snoop = .ok () m') : m'.allocator.ports = m.allocator.ports := by
  cases snoop with
  | none => cases h; rfl
  | some snoop => exact ports_broadcast h

/-! ### Retiring heads -/

/-- Remove the visible head of a port, and tell a requestor that was refused to
try again.

That there is a head to remove is not asserted in the step, which passes over a
port without one: no turn retires such a port, for all those behind a request
still have the heads that it was formed of
(`Assembly.dispatches_of_forming`). -/
def retireHead (now : Nat) (m : Assembly σ) (port : Nat) : Assembly σ :=
  match m.allocator.ports[port]? with
  | none => m
  | some p =>
      let popped := p.pop? now
      let left := (popped.map (·.2)).getD p
      let owed := left.takeRetry
      let m := m.update (·.setPort port owed.2)
      let m := match popped with
        | some (e, _) => m.count (.recordWait (e.age now))
        | none => m
      if owed.1 then (m.note (.sendingRetry port)).notifyRetry port else m

/-- Remove the heads of the ports behind a request. -/
def retireHeads (now : Nat) (m : Assembly σ) (ports : List Nat) : Assembly σ :=
  ports.foldl (retireHead now) m

end Requestors

end Assembly

/-! ### How much retiring leaves -/

namespace Allocator

/-- Replacing a front end changes the number of queued transactions by the
difference. -/
theorem waiting_setPort {a : Allocator} {port : Nat} {p : RequestorPort}
    (h : a.ports[port]? = some p) (p' : RequestorPort) :
    (a.setPort port p').waiting + p.length = a.waiting + p'.length := by
  unfold waiting setPort
  rw [List.map_set]
  exact total_set (by simp [h])

end Allocator

namespace Assembly

variable {σ : Type} [Requestors σ]

/-- What retiring the head of a port leaves of the ports. -/
theorem ports_retireHead (now : Nat) (m : Assembly σ) (port : Nat) :
    (m.retireHead now port).allocator.ports =
      match m.allocator.ports[port]? with
      | none => m.allocator.ports
      | some p => m.allocator.ports.set port
          { ((p.pop? now).map (·.2)).getD p with needsRetry := false } := by
  unfold retireHead
  split
  · rfl
  · rename_i p hp
    simp only
    split <;> split <;> rfl

/-- **Retiring a head never adds to the queues**, and takes a transaction out
where a head is visible. -/
theorem waiting_retireHead (now : Nat) (m : Assembly σ) (port : Nat) :
    (m.retireHead now port).allocator.waiting +
        (if (m.allocator.headAt? now port).isSome then 1 else 0) ≤ m.allocator.waiting := by
  have hports := ports_retireHead now m port
  unfold Allocator.headAt?
  cases hp : m.allocator.ports[port]? with
  | none =>
    rw [hp] at hports
    simp [Allocator.waiting, hports]
  | some p =>
    rw [hp] at hports
    simp only at hports
    have hset := Allocator.waiting_setPort hp
    cases hpop : p.pop? now with
    | none =>
      -- nothing is removed, and nothing was visible
      have hnone : p.head? now = none := by
        cases hh : p.head? now with
        | none => rfl
        | some txn =>
          obtain ⟨e, p', hpop', _⟩ := RequestorPort.pop?_of_head? hh
          rw [hpop] at hpop'
          cases hpop'
      rw [hpop] at hports
      have := hset { p with needsRetry := false }
      have hlen : ({ p with needsRetry := false } : RequestorPort).length = p.length := rfl
      rw [hlen] at this
      simp only [Option.map_none, Option.getD_none] at hports
      simp only [Option.bind_some, hnone, Option.isSome_none, Bool.false_eq_true, if_false,
        Allocator.waiting, hports]
      simp only [Allocator.waiting, Allocator.setPort] at this
      omega
    | some r =>
      obtain ⟨e, p'⟩ := r
      rw [hpop] at hports
      have := hset { p' with needsRetry := false }
      have hlen : ({ p' with needsRetry := false } : RequestorPort).length = p'.length := rfl
      rw [hlen] at this
      have hshort := (RequestorPort.length_pop? hpop).1
      simp only [Option.map_some, Option.getD_some] at hports
      simp only [Option.bind_some, Allocator.waiting, hports]
      simp only [Allocator.waiting, Allocator.setPort] at this
      split <;> omega

theorem length_ports_retireHead (now : Nat) (m : Assembly σ) (port : Nat) :
    (m.retireHead now port).allocator.ports.length = m.allocator.ports.length := by
  rw [ports_retireHead]
  split
  · rfl
  · rw [List.length_set]

theorem waiting_retireHeads_le (now : Nat) (m : Assembly σ) (ports : List Nat) :
    (m.retireHeads now ports).allocator.waiting ≤ m.allocator.waiting := by
  induction ports generalizing m with
  | nil => exact Nat.le_refl _
  | cons port rest ih =>
    have h := waiting_retireHead now m port
    have h' : ((m.retireHead now port).retireHeads now rest).allocator.waiting ≤ _ := ih _
    unfold retireHeads at h' ⊢
    rw [List.foldl_cons]
    omega

theorem length_ports_retireHeads (now : Nat) (m : Assembly σ) (ports : List Nat) :
    (m.retireHeads now ports).allocator.ports.length = m.allocator.ports.length := by
  induction ports generalizing m with
  | nil => rfl
  | cons port rest ih =>
    have h' := ih (m.retireHead now port)
    unfold retireHeads at h' ⊢
    rw [List.foldl_cons, h', length_ports_retireHead]

/-- **Retiring a visible head shortens the queues**, whatever else is retired
with it. -/
theorem waiting_retireHeads_lt {now : Nat} {m : Assembly σ} {port : Nat} {rest : List Nat}
    (h : (m.allocator.headAt? now port).isSome = true) :
    (m.retireHeads now (port :: rest)).allocator.waiting < m.allocator.waiting := by
  have h₁ := waiting_retireHead now m port
  rw [if_pos h] at h₁
  have h₂ := waiting_retireHeads_le now (m.retireHead now port) rest
  unfold retireHeads at h₂ ⊢
  rw [List.foldl_cons]
  omega

end Assembly

end MemPort
