import MemPort.Allocator.Access
import MemPort.Proofs.Turns

/-!
# Runs

A run is what happens to an allocator and its surroundings when its entry points
are called one after the other, in any order and with any arguments.  A call can
do many things, so a run is recorded in smaller pieces: every answer that is
handed out, every turn of the issue loop, and so on, each with the assembly
before and after it.  A broken contract ends a run; any other failure ends the
tick that it happened in.

The record of a run is computed (`run`), so a run can be looked at as well as
reasoned about.  What reasoning needs of it is that every piece is `Genuine` —
its assembly afterwards is what the allocator makes of the one before — and
that each piece begins where the last one ended (`Linked`).

## Main definitions

* `Event`, `Moment` — one piece of a run.
* `Call`, `run` — the entry points, and what a list of calls to them does.
* `Moment.Genuine`, `Linked` — what is known of the record of a run.

## Main results

* `tick_moments` — the pieces of a tick make up the tick.
* `linked_run` — the record of a run is linked.
* `Linked.induct` — what every genuine piece preserves, a run preserves.

## References

`SPEC_FULL.md`, section 5: entry points are called one after the other, and
never within each other.
-/

namespace MemPort

/-! ### Pieces of a run -/

/-- Whether two steps came to the same. -/
instance decidableEqExcept {ε α : Type} [DecidableEq ε] [DecidableEq α] :
    DecidableEq (Except ε α)
  | .ok a, .ok b => decidable_of_iff (a = b) ⟨congrArg _, Except.ok.inj⟩
  | .error e, .error f => decidable_of_iff (e = f) ⟨congrArg _, Except.error.inj⟩
  | .ok _, .error _ => isFalse nofun
  | .error _, .ok _ => isFalse nofun

/-- What happened, with what came of it. -/
inductive Event where
  /-- A requestor submitted a transaction. -/
  | submitted (now port : Nat) (txn : Transaction) (result : Except Failure Bool)
  /-- The memory answered a request, and its answer was taken or not. -/
  | received (now : Nat) (response : BackendResponse) (taken : Bool)
  /-- The memory called back after a refusal. -/
  | resumed
  /-- An access was performed at once. -/
  | performed (now port : Nat) (txn : Transaction) (result : Except Failure Response)
  /-- The surroundings changed by themselves. -/
  | elapsed
  /-- A tick could not begin. -/
  | interrupted (now : Nat) (a : Assertion)
  /-- An answer was drained and handed out. -/
  | answered (now : Nat) (response : BackendResponse) (result : Except Failure Unit)
  /-- The debt of a response retry was settled. -/
  | settled (now : Nat)
  /-- Locks that ran out of time were dropped. -/
  | swept (now : Nat)
  /-- A turn of the issue loop was taken. -/
  | turned (now : Nat) (result : Except Failure Turn)
  /-- Progress was checked. -/
  | checked (now : Nat) (result : Except Failure Unit)
  deriving DecidableEq

/-- The failure of a step that failed. -/
def failureOf {α : Type} : Except Failure α → Option Failure
  | .ok _ => none
  | .error e => some e

/-- Where there is a result, no contract was broken. -/
theorem ok_ne_assertion {α : Type} (x : α) (a : Assertion) :
    (.ok x : Except Failure α) ≠ .error (.assertion a) := by
  intro h
  cases h

namespace Event

/-- The failure of a piece that failed. -/
def failure? : Event → Option Failure
  | submitted _ _ _ result => failureOf result
  | performed _ _ _ result => failureOf result
  | interrupted _ a => some (.assertion a)
  | answered _ _ result => failureOf result
  | turned _ result => failureOf result
  | checked _ result => failureOf result
  | received .. | resumed | elapsed | settled _ | swept _ => none

/-- Whether a contract was broken. -/
def isBroken (e : Event) : Bool :=
  match e.failure? with
  | some (.assertion _) => true
  | _ => false

/-- The result of a piece that breaks no contract is no broken contract. -/
theorem ne_assertion {e : Event} (hok : e.isBroken = false) {α : Type} {result : Except Failure α}
    (h : e.failure? = failureOf result) (a : Assertion) : result ≠ .error (.assertion a) := by
  rintro rfl
  unfold isBroken at hok
  rw [h] at hok
  cases hok

/-- When it happened, where that is known. -/
def now? : Event → Option Nat
  | submitted now .. | received now .. | performed now .. | interrupted now _ | answered now ..
  | settled now | swept now | turned now _ | checked now _ => some now
  | resumed | elapsed => none

end Event

/-- A piece of a run: what happened, between an assembly before and one after. -/
structure Moment (σ : Type) where
  /-- The assembly before. -/
  before : Assembly (Recorded σ)
  /-- What happened. -/
  event : Event
  /-- The assembly after. -/
  after : Assembly (Recorded σ)

/-- The assembly after the pieces that began at `m`. -/
def endOf {σ : Type} (m : Assembly (Recorded σ)) : List (Moment σ) → Assembly (Recorded σ)
  | [] => m
  | x :: rest => endOf x.after rest

/-- A piece of a record, with those before and after it. -/
theorem eq_of_piece {σ : Type} {ms : List (Moment σ)} {i : Nat} {x : Moment σ}
    (h : ms[i]? = some x) : ms = ms.take i ++ x :: ms.drop (i + 1) := by
  obtain ⟨hlt, hx⟩ := List.getElem?_eq_some_iff.mp h
  rw [← hx, ← List.drop_eq_getElem_cons hlt, List.take_append_drop]

theorem take_of_piece {σ : Type} {ms : List (Moment σ)} {i : Nat} {x : Moment σ}
    (h : ms[i]? = some x) (k : Nat) :
    ms.take (i + 1 + k) = ms.take i ++ x :: (ms.drop (i + 1)).take k := by
  have hlt := (List.getElem?_eq_some_iff.mp h).1
  refine (congrArg (List.take (i + 1 + k)) (eq_of_piece h)).trans ?_
  rw [List.take_append, List.length_take, Nat.min_eq_left (Nat.le_of_lt hlt),
    List.take_of_length_le (by rw [List.length_take]; omega),
    show i + 1 + k - i = k + 1 by omega, List.take_succ_cons]

/-- An element of a list that grew at the end is the last one, or was there
before. -/
theorem eq_or_of_concat_eq {α : Type} {xs earlier later : List α} {x y : α}
    (h : xs ++ [x] = earlier ++ y :: later) : (earlier = xs ∧ y = x ∧ later = []) ∨
      ∃ rest, later = rest ++ [x] ∧ xs = earlier ++ y :: rest := by
  rcases List.eq_nil_or_concat later with rfl | ⟨rest, last, rfl⟩
  · obtain ⟨rfl, hlast⟩ := List.append_inj' h rfl
    cases hlast
    exact .inl ⟨rfl, rfl, rfl⟩
  · rw [List.concat_eq_append, ← List.cons_append, ← List.append_assoc] at h
    obtain ⟨rfl, hlast⟩ := List.append_inj' h rfl
    cases hlast
    exact .inr ⟨rest, List.concat_eq_append, rfl⟩

/-- The first failure in some pieces. -/
def failureIn {σ : Type} (ms : List (Moment σ)) : Option Failure :=
  ms.findSome? (·.event.failure?)

/-- Go on after some pieces, unless one of them failed. -/
def follow {σ : Type} (m : Assembly (Recorded σ)) (ms : List (Moment σ))
    (next : Assembly (Recorded σ) → List (Moment σ)) : List (Moment σ) :=
  match failureIn ms with
  | some _ => ms
  | none => ms ++ next (endOf m ms)

namespace Assembly

variable {σ : Type} [Requestors σ] [Backend σ]

/-! ### The pieces of a tick -/

/-- Draining answers, one piece for each. -/
def drainMoments (now : Nat) (m : Assembly (Recorded σ)) : List (Moment σ) :=
  match _hd : m.allocator.backendPort.drain? now with
  | none => []
  | some (response, port) =>
      match _ha : (m.update fun a => { a with backendPort := port }).answer now response with
      | .error e m' => [⟨m, .answered now response (.error e), m'⟩]
      | .ok () m' => ⟨m, .answered now response (.ok ()), m'⟩ :: drainMoments now m'
termination_by m.allocator.backendPort.pending
decreasing_by exact pending_drain_lt _hd _ha

/-- The response path of a cycle. -/
def responseMoments (now : Nat) (m : Assembly (Recorded σ)) : List (Moment σ) :=
  follow m (m.drainMoments now) fun m' =>
    if (m.drainMoments now).isEmpty then [] else [⟨m', .settled now, m'.settleResponses⟩]

/-- The turns of a cycle, one piece for each. -/
def turnMoments (now issued : Nat) (m : Assembly (Recorded σ)) : List (Moment σ) :=
  if m.allocator.backendPort.busy || m.allocator.config.maxIssuePerCycle ≤ issued then []
  else
    match _hturn : m.issueTurn now with
    | .error e m' => [⟨m, .turned now (.error e), m'⟩]
    | .ok turn m' =>
        ⟨m, .turned now (.ok turn), m'⟩ ::
          if _hon : turn.goesOn = true then turnMoments now (issued + turn.cost) m' else []
termination_by m.allocator.weight
decreasing_by exact weight_issueTurn_lt _hturn _hon

/-- The issue path of a cycle. -/
def issueMoments (now : Nat) (m : Assembly (Recorded σ)) : List (Moment σ) :=
  ⟨m, .swept now, m.sweepLocks now⟩ :: (m.sweepLocks now).turnMoments now 0

/-- The progress check of a cycle. -/
def checkMoment (now : Nat) (m : Assembly (Recorded σ)) : Moment σ :=
  ⟨m, .checked now (m.checkProgress now).result, (m.checkProgress now).left⟩

/-- A whole cycle. -/
def tickMoments (now : Nat) (m : Assembly (Recorded σ)) : List (Moment σ) :=
  if Requestors.lanes m.surroundings ≠ m.allocator.ports.length then
    [⟨m, .interrupted now .requestorCount, m⟩]
  else
    follow m (m.responseMoments now) fun m =>
      follow m (m.issueMoments now) fun m => [m.checkMoment now]

end Assembly

/-! ### Calls -/

/-- What the world outside may do with an assembly. -/
inductive Call (σ : Type) where
  /-- A requestor submits a transaction. -/
  | submit (now port : Nat) (txn : Transaction)
  /-- A cycle passes. -/
  | tick (now : Nat)
  /-- The memory answers a request. -/
  | receive (now : Nat) (response : BackendResponse)
  /-- The memory takes requests again. -/
  | backendRetry
  /-- An access is performed at once. -/
  | functional (now port : Nat) (txn : Transaction)
  /-- The surroundings change by themselves, without a call to the allocator. -/
  | elapse (f : σ → σ)

/-- When a call is made, where it says so. -/
def Call.now? {σ : Type} : Call σ → Option Nat
  | submit now .. | tick now | receive now _ | functional now .. => some now
  | backendRetry | elapse _ => none

/-- Recorded surroundings that changed by themselves: no call to them is added. -/
def Recorded.elapse {σ : Type} (f : σ → σ) (s : Recorded σ) : Recorded σ :=
  { s with inner := f s.inner }

section Run

variable {σ : Type} [Requestors σ] [Backend σ]

/-- The pieces of a call. -/
def Call.moments (c : Call σ) (m : Assembly (Recorded σ)) : List (Moment σ) :=
  match c with
  | submit now port txn =>
      [⟨m, .submitted now port txn (m.submit now port txn).result,
        (m.submit now port txn).left⟩]
  | tick now => m.tickMoments now
  | receive now response =>
      [⟨m, .received now response (m.receive now response).1, (m.receive now response).2⟩]
  | backendRetry => [⟨m, .resumed, m.backendRetry⟩]
  | functional now port txn =>
      [⟨m, .performed now port txn (m.accessFunctional now port txn).result,
        (m.accessFunctional now port txn).left⟩]
  | elapse f => [⟨m, .elapsed, { m with surroundings := m.surroundings.elapse f }⟩]

/-- What a list of acts does, one after the other, until a contract is broken. -/
def runBy {κ : Type} (act : κ → Assembly (Recorded σ) → List (Moment σ)) :
    List κ → Assembly (Recorded σ) → List (Moment σ)
  | [], _ => []
  | c :: rest, m =>
      let ms := act c m
      if ms.any (·.event.isBroken) then ms else ms ++ runBy act rest (endOf m ms)

/-- What a list of calls does. -/
def run (calls : List (Call σ)) (m : Assembly (Recorded σ)) : List (Moment σ) :=
  runBy Call.moments calls m

end Run

/-! ### Genuine pieces -/

/-- The allocator after any number of answers and retries of the memory. -/
inductive Relays (a : Allocator) : Allocator → Prop
  /-- The memory did not call. -/
  | refl : Relays a a
  /-- The memory answered a request. -/
  | received {b : Allocator} (now : Nat) (response : BackendResponse) (h : Relays a b) :
      Relays a (b.receive now response).value.2
  /-- The memory takes requests again. -/
  | resumed {b : Allocator} (h : Relays a b) : Relays a b.backendRetry.value

/-- **What the memory changes by its calls**: the backend port and the count of
refused answers. -/
theorem Relays.frame {a b : Allocator} (h : Relays a b) : ∃ backendPort responseRejects,
    b = { a with backendPort, stats := { a.stats with responseRejects } } := by
  induction h with
  | refl => exact ⟨a.backendPort, a.stats.responseRejects, rfl⟩
  | @received b now response _ ih =>
    obtain ⟨backendPort, responseRejects, hb⟩ := b.frame_receive now response
    obtain ⟨_, _, rfl⟩ := ih
    exact ⟨backendPort, responseRejects, hb⟩
  | resumed _ ih =>
    obtain ⟨_, responseRejects, rfl⟩ := ih
    exact ⟨_, responseRejects, rfl⟩

section Genuine

variable {σ : Type} [Requestors σ] [Backend σ]

/-- A piece whose assembly afterwards is what the allocator makes of the one
before. -/
inductive Moment.Genuine : Moment σ → Prop
  /-- A submission. -/
  | submitted (m : Assembly (Recorded σ)) (now port : Nat) (txn : Transaction) :
      Genuine ⟨m, .submitted now port txn (m.submit now port txn).result,
        (m.submit now port txn).left⟩
  /-- An answer of the memory. -/
  | received (m : Assembly (Recorded σ)) (now : Nat) (response : BackendResponse) :
      Genuine ⟨m, .received now response (m.receive now response).1, (m.receive now response).2⟩
  /-- A retry of the memory. -/
  | resumed (m : Assembly (Recorded σ)) : Genuine ⟨m, .resumed, m.backendRetry⟩
  /-- An access at once. -/
  | performed (m : Assembly (Recorded σ)) (now port : Nat) (txn : Transaction) :
      Genuine ⟨m, .performed now port txn (m.accessFunctional now port txn).result,
        (m.accessFunctional now port txn).left⟩
  /-- A change of the surroundings, in which the memory may call. -/
  | elapsed (m : Assembly (Recorded σ)) (a : Allocator) (s : σ) (j : Journal)
      (h : Relays m.allocator a) : Genuine
        ⟨m, .elapsed, ⟨a, ⟨s, m.surroundings.contacts⟩, j⟩⟩
  /-- A tick that could not begin. -/
  | interrupted (m : Assembly (Recorded σ)) (now : Nat) (a : Assertion) :
      Genuine ⟨m, .interrupted now a, m⟩
  /-- An answer that was drained. -/
  | answered (m : Assembly (Recorded σ)) (now : Nat) (response : BackendResponse)
      (port : BackendPort) (h : m.allocator.backendPort.drain? now = some (response, port)) :
      Genuine ⟨m, .answered now response
          ((m.update fun a => { a with backendPort := port }).answer now response).result,
        ((m.update fun a => { a with backendPort := port }).answer now response).left⟩
  /-- A debt that was settled. -/
  | settled (m : Assembly (Recorded σ)) (now : Nat) :
      Genuine ⟨m, .settled now, m.settleResponses⟩
  /-- A sweep of the locks. -/
  | swept (m : Assembly (Recorded σ)) (now : Nat) : Genuine ⟨m, .swept now, m.sweepLocks now⟩
  /-- A turn, which is taken only while the memory is not busy. -/
  | turned (m : Assembly (Recorded σ)) (now : Nat) (h : m.allocator.backendPort.busy = false) :
      Genuine ⟨m, .turned now (m.issueTurn now).result, (m.issueTurn now).left⟩
  /-- A progress check. -/
  | checked (m : Assembly (Recorded σ)) (now : Nat) : Genuine (m.checkMoment now)

/-- Genuine pieces that follow on each other; only the last may have broken a
contract. -/
inductive Linked : Assembly (Recorded σ) → List (Moment σ) → Prop
  /-- Nothing happened. -/
  | nil (m : Assembly (Recorded σ)) : Linked m []
  /-- A first piece, and those that begin where it ended. -/
  | cons {x : Moment σ} {rest : List (Moment σ)} (hx : x.Genuine)
      (hbroken : x.event.isBroken = true → rest = []) (hrest : Linked x.after rest) :
      Linked x.before (x :: rest)

/-- Whether no contract was broken in some pieces. -/
def Unbroken (ms : List (Moment σ)) : Prop := ∀ x ∈ ms, x.event.isBroken = false

instance (ms : List (Moment σ)) : Decidable (Unbroken ms) :=
  inferInstanceAs (Decidable (∀ x ∈ ms, x.event.isBroken = false))

omit [Requestors σ] [Backend σ] in
theorem unbroken_nil : Unbroken ([] : List (Moment σ)) := List.forall_mem_nil _

omit [Requestors σ] [Backend σ] in
theorem endOf_append (m : Assembly (Recorded σ)) (ms ms' : List (Moment σ)) :
    endOf m (ms ++ ms') = endOf (endOf m ms) ms' := by
  induction ms generalizing m with
  | nil => rfl
  | cons x rest ih => exact ih x.after

namespace Linked

variable {m : Assembly (Recorded σ)} {ms ms' pre post : List (Moment σ)}

theorem single {x : Moment σ} (hx : x.Genuine) : Linked x.before [x] :=
  .cons hx (fun _ => rfl) (.nil _)

theorem append (h : Linked m ms) (hok : Unbroken ms) (h' : Linked (endOf m ms) ms') :
    Linked m (ms ++ ms') := by
  induction h with
  | nil m => exact h'
  | @cons x rest hx _ _ ih =>
    have hx' := hok x List.mem_cons_self
    refine .cons hx (fun hb => ?_) (ih (fun y hy => hok y (List.mem_cons_of_mem _ hy)) h')
    rw [hx'] at hb
    cases hb

/-- A record that goes on is a record without broken contracts, and one that
begins at its end. -/
theorem split (h : Linked m (pre ++ post)) :
    Linked m pre ∧ (post ≠ [] → Unbroken pre) ∧ Linked (endOf m pre) post := by
  induction pre generalizing m with
  | nil => exact ⟨.nil m, fun _ => unbroken_nil, h⟩
  | cons x rest ih =>
    cases h with
    | cons hx hbroken hrest =>
      obtain ⟨h₁, h₂, h₃⟩ := ih hrest
      refine ⟨.cons hx (fun hb => (List.append_eq_nil_iff.mp (hbroken hb)).1) h₁, ?_, h₃⟩
      intro hpost y hy
      rcases List.mem_cons.mp hy with rfl | hy
      · cases hb : y.event.isBroken with
        | false => rfl
        | true => exact absurd (List.append_eq_nil_iff.mp (hbroken hb)).2 hpost
      · exact h₂ hpost y hy

/-- The beginning of a record is a record. -/
theorem initial (h : Linked m ms) (hpre : pre <+: ms) : Linked m pre := by
  obtain ⟨post, rfl⟩ := hpre
  exact h.split.1

/-- A piece in the middle of a record begins where those before it ended. -/
theorem split_cons {x : Moment σ} (h : Linked m (pre ++ x :: post)) :
    Linked m pre ∧ Unbroken pre ∧ x.before = endOf m pre ∧ x.Genuine ∧
    Linked x.after post := by
  obtain ⟨hpre, hok, hpost⟩ := h.split
  generalize hend : endOf m pre = e at hpost
  cases hpost with
  | cons hx _ hrest => exact ⟨hpre, hok (by simp), rfl, hx, hrest⟩

/-- **Induction over a run**: what holds at the start, and is kept by every
genuine piece that breaks no contract, holds at the end of a run that breaks
none.  The pieces may be known to satisfy `R`. -/
theorem induct {P : List (Moment σ) → Assembly (Recorded σ) → Prop} {R : Moment σ → Prop}
    (hstart : P [] m)
    (hstep : ∀ pre x, P pre x.before → x.Genuine → x.event.isBroken = false → R x →
      P (pre ++ [x]) x.after)
    (h : Linked m ms) (hok : Unbroken ms) (hR : ∀ x ∈ ms, R x) : P ms (endOf m ms) := by
  -- the pieces so far, and those yet to come
  have hgo : ∀ {m : Assembly (Recorded σ)} {ms : List (Moment σ)},
      Linked m ms → Unbroken ms → (∀ x ∈ ms, R x) →
      ∀ pre, P pre m → P (pre ++ ms) (endOf m ms) := by
    intro m ms h
    induction h with
    | nil m =>
      intro _ _ pre hpre
      rw [List.append_nil]
      exact hpre
    | @cons x rest hx _ _ ih =>
      intro hok hR pre hpre
      have hnext := hstep pre x hpre hx (hok x List.mem_cons_self) (hR x List.mem_cons_self)
      have hrest := ih (fun y hy => hok y (List.mem_cons_of_mem _ hy))
        (fun y hy => hR y (List.mem_cons_of_mem _ hy)) (pre ++ [x]) hnext
      rwa [List.append_assoc] at hrest
  exact hgo h hok hR [] hstart

end Linked

/-! ### Runs are linked -/

namespace Assembly

theorem linked_drainMoments (now : Nat) (m : Assembly (Recorded σ)) :
    Linked m (m.drainMoments now) := by
  fun_induction drainMoments now m with
  | case1 m _ => exact .nil m
  | case2 m response port hd e m' ha =>
    have hx := Moment.Genuine.answered m now response port hd
    rw [ha] at hx
    exact .single hx
  | case3 m response port hd m' ha ih =>
    have hx := Moment.Genuine.answered m now response port hd
    rw [ha] at hx
    exact .cons hx (fun hb => by cases hb) ih

theorem linked_turnMoments (now issued : Nat) (m : Assembly (Recorded σ)) :
    Linked m (m.turnMoments now issued) := by
  fun_induction turnMoments now issued m with
  | case1 issued m _ => exact .nil m
  | case2 issued m hopen e m' hturn =>
    have hx := Moment.Genuine.turned m now (Allocator.not_busy hopen)
    rw [hturn] at hx
    exact .single hx
  | case3 issued m hopen turn m' hturn ih =>
    have hx := Moment.Genuine.turned m now (Allocator.not_busy hopen)
    rw [hturn] at hx
    refine .cons hx (fun hb => by cases hb) ?_
    split
    · rename_i hon
      exact ih hon
    · exact .nil m'

end Assembly

omit [Requestors σ] [Backend σ] in
theorem unbroken_of_failureIn {ms : List (Moment σ)} (h : failureIn ms = none) : Unbroken ms := by
  intro x hx
  have hnone := List.findSome?_eq_none_iff.mp h x hx
  unfold Event.isBroken
  rw [hnone]

theorem Linked.follow {m : Assembly (Recorded σ)} {ms : List (Moment σ)}
    {next : Assembly (Recorded σ) → List (Moment σ)} (h : Linked m ms)
    (hnext : ∀ m', Linked m' (next m')) : Linked m (follow m ms next) := by
  unfold MemPort.follow
  split
  · exact h
  · rename_i hnone
    exact h.append (unbroken_of_failureIn hnone) (hnext _)

namespace Assembly

theorem linked_tickMoments (now : Nat) (m : Assembly (Recorded σ)) :
    Linked m (m.tickMoments now) := by
  unfold tickMoments
  split
  · exact .single (.interrupted m now _)
  · have hresponse : Linked m (m.responseMoments now) := by
      refine (linked_drainMoments now m).follow fun m' => ?_
      split
      · exact .nil m'
      · exact .single (.settled m' now)
    refine hresponse.follow fun m₁ => ?_
    refine Linked.follow (.cons (.swept m₁ now) nofun (linked_turnMoments now 0 _)) fun m₂ => ?_
    exact .single (.checked m₂ now)

end Assembly

theorem Call.linked_moments (c : Call σ) (m : Assembly (Recorded σ)) :
    Linked m (c.moments m) := by
  cases c with
  | submit now port txn => exact .single (.submitted m now port txn)
  | tick now => exact m.linked_tickMoments now
  | receive now response => exact .single (.received m now response)
  | backendRetry => exact .single (.resumed m)
  | functional now port txn => exact .single (.performed m now port txn)
  | elapse f => exact .single (.elapsed m _ _ _ .refl)

theorem linked_runBy {κ : Type} {act : κ → Assembly (Recorded σ) → List (Moment σ)}
    (hact : ∀ c m, Linked m (act c m)) (cs : List κ) (m : Assembly (Recorded σ)) :
    Linked m (runBy act cs m) := by
  induction cs generalizing m with
  | nil => exact .nil m
  | cons c rest ih =>
    unfold runBy
    simp only
    split
    · exact hact c m
    · rename_i hok
      refine (hact c m).append (fun x hx => ?_) (ih _)
      cases hb : x.event.isBroken with
      | false => rfl
      | true => exact absurd (List.any_eq_true.mpr ⟨x, hx, hb⟩) hok

/-- **The record of a run is linked.** -/
theorem linked_run (calls : List (Call σ)) (m : Assembly (Recorded σ)) : Linked m (run calls m) :=
  linked_runBy Call.linked_moments calls m

omit [Requestors σ] [Backend σ] in
/-- What an act does comes first in the record of it and more. -/
theorem prefix_runBy_cons {κ : Type}
    (act : κ → Assembly (Recorded σ) → List (Moment σ)) (c : κ)
    (rest : List κ) (m : Assembly (Recorded σ)) : act c m <+: runBy act (c :: rest) m := by
  unfold runBy
  simp only
  split
  · exact List.prefix_rfl
  · exact List.prefix_append _ _

omit [Requestors σ] [Backend σ] in
/-- An act that breaks no contract is followed by the others. -/
theorem runBy_cons {κ : Type} {act : κ → Assembly (Recorded σ) → List (Moment σ)} {c : κ}
    {m : Assembly (Recorded σ)} (hok : Unbroken (act c m)) (rest : List κ) :
    runBy act (c :: rest) m = act c m ++ runBy act rest (endOf m (act c m)) := by
  have hnone : ¬ (act c m).any (·.event.isBroken) = true := by
    rw [List.any_eq_true]
    rintro ⟨x, hx, hb⟩
    rw [hok x hx] at hb
    cases hb
  exact if_neg hnone

omit [Requestors σ] [Backend σ] in
/-- What more acts do comes after what the first ones do, unless these broke a
contract. -/
theorem runBy_append {κ : Type} {act : κ → Assembly (Recorded σ) → List (Moment σ)}
    {cs : List κ} {m : Assembly (Recorded σ)} (hok : Unbroken (runBy act cs m)) (ds : List κ) :
    runBy act (cs ++ ds) m = runBy act cs m ++ runBy act ds (endOf m (runBy act cs m)) := by
  induction cs generalizing m with
  | nil => rfl
  | cons c rest ih =>
    have hfirst : Unbroken (act c m) :=
      fun x hx => hok x ((prefix_runBy_cons act c rest m).subset hx)
    rw [runBy_cons hfirst] at hok
    rw [List.cons_append, runBy_cons hfirst, runBy_cons hfirst,
      ih fun x hx => hok x (List.mem_append_right _ hx), endOf_append, List.append_assoc]

omit [Requestors σ] [Backend σ] in
/-- The record of some acts is the first part of the record of these acts and
more. -/
theorem prefix_runBy_append {κ : Type} (act : κ → Assembly (Recorded σ) → List (Moment σ))
    (cs ds : List κ)
    (m : Assembly (Recorded σ)) : runBy act cs m <+: runBy act (cs ++ ds) m := by
  induction cs generalizing m with
  | nil => exact List.nil_prefix
  | cons c rest ih =>
    rw [List.cons_append]
    unfold runBy
    simp only
    split
    · exact List.prefix_rfl
    · exact (List.prefix_append_right_inj _).mpr (ih _)

/-! ### The cycles of a run -/

/-- The pieces that a tick is made of. -/
inductive Event.OfTick (now : Nat) : Event → Prop
  /-- It could not begin. -/
  | interrupted (a : Assertion) : OfTick now (.interrupted now a)
  /-- An answer was drained. -/
  | answered (response : BackendResponse) (result : Except Failure Unit) :
      OfTick now (.answered now response result)
  /-- A debt was settled. -/
  | settled : OfTick now (.settled now)
  /-- Locks were swept. -/
  | swept : OfTick now (.swept now)
  /-- A turn was taken. -/
  | turned (result : Except Failure Turn) : OfTick now (.turned now result)
  /-- Progress was checked. -/
  | checked (result : Except Failure Unit) : OfTick now (.checked now result)

theorem Event.OfTick.now?_eq {e : Event} {now : Nat} (h : e.OfTick now) : e.now? = some now := by
  cases h <;> rfl

namespace Assembly

omit [Backend σ] in
/-- The pieces of a drain are answers. -/
theorem answered_of_drainMoments {now : Nat} {m : Assembly (Recorded σ)} {x : Moment σ}
    (h : x ∈ m.drainMoments now) :
    ∃ response result, x.event = .answered now response result := by
  fun_induction drainMoments now m with
  | case1 m _ => cases h
  | case2 m response port _ e m' _ =>
    rw [List.mem_singleton.mp h]
    exact ⟨response, _, rfl⟩
  | case3 m response port _ m' _ ih =>
    rcases List.mem_cons.mp h with rfl | h
    · exact ⟨response, _, rfl⟩
    · exact ih h

/-- The pieces of the turns are turns. -/
theorem turned_of_turnMoments {now issued : Nat} {m : Assembly (Recorded σ)} {x : Moment σ}
    (h : x ∈ m.turnMoments now issued) : ∃ result, x.event = .turned now result := by
  fun_induction turnMoments now issued m with
  | case1 issued m _ => cases h
  | case2 issued m _ e m' _ =>
    rw [List.mem_singleton.mp h]
    exact ⟨_, rfl⟩
  | case3 issued m _ turn m' _ ih =>
    rcases List.mem_cons.mp h with rfl | h
    · exact ⟨_, rfl⟩
    · split at h
      · rename_i hon
        exact ih hon h
      · cases h

omit [Requestors σ] [Backend σ] in
theorem mem_follow {m : Assembly (Recorded σ)} {ms : List (Moment σ)}
    {next : Assembly (Recorded σ) → List (Moment σ)} {x : Moment σ}
    (h : x ∈ follow m ms next) :
    x ∈ ms ∨ x ∈ next (endOf m ms) := by
  unfold follow at h
  split at h
  · exact Or.inl h
  · exact List.mem_append.mp h

theorem ofTick_tickMoments {now : Nat} {m : Assembly (Recorded σ)} {x : Moment σ}
    (h : x ∈ m.tickMoments now) : x.event.OfTick now := by
  unfold tickMoments at h
  split at h
  · rw [List.mem_singleton.mp h]
    exact .interrupted _
  · rcases mem_follow h with h | h
    · rcases mem_follow h with h | h
      · obtain ⟨response, result, hevent⟩ := answered_of_drainMoments h
        rw [hevent]
        exact .answered response result
      · split at h
        · cases h
        · rw [List.mem_singleton.mp h]
          exact .settled
    · rcases mem_follow h with h | h
      · rcases List.mem_cons.mp h with rfl | h
        · exact .swept
        · obtain ⟨result, hevent⟩ := turned_of_turnMoments h
          rw [hevent]
          exact .turned result
      · rw [List.mem_singleton.mp h]
        exact .checked _

end Assembly

theorem Call.now?_moments {c : Call σ} {m : Assembly (Recorded σ)} {x : Moment σ}
    (h : x ∈ c.moments m) : x.event.now? = c.now? := by
  cases c with
  | tick now => exact (Assembly.ofTick_tickMoments h).now?_eq
  | _ =>
    rw [List.mem_singleton.mp h]
    rfl

omit [Requestors σ] [Backend σ] in
theorem mem_runBy {κ : Type} {act : κ → Assembly (Recorded σ) → List (Moment σ)}
    {cs : List κ} {m : Assembly (Recorded σ)} {x : Moment σ} (h : x ∈ runBy act cs m) :
    ∃ c ∈ cs, ∃ m', x ∈ act c m' := by
  induction cs generalizing m with
  | nil => cases h
  | cons c rest ih =>
    unfold runBy at h
    simp only at h
    split at h
    · exact ⟨c, List.mem_cons_self, m, h⟩
    · rcases List.mem_append.mp h with h | h
      · exact ⟨c, List.mem_cons_self, m, h⟩
      · obtain ⟨d, hd, hx⟩ := ih h
        exact ⟨d, List.mem_cons_of_mem _ hd, hx⟩

theorem now?_run {calls : List (Call σ)} {m : Assembly (Recorded σ)} {x : Moment σ}
    (h : x ∈ run calls m) : ∃ c ∈ calls, x.event.now? = c.now? := by
  obtain ⟨c, hc, m', hx⟩ := mem_runBy h
  exact ⟨c, hc, Call.now?_moments hx⟩

/-- In a run, the surroundings change without a call to the allocator. -/
theorem allocator_elapsed {calls : List (Call σ)} {m : Assembly (Recorded σ)} {x : Moment σ}
    (h : x ∈ run calls m) (helapsed : x.event = .elapsed) :
    x.after.allocator = x.before.allocator := by
  obtain ⟨c, -, m', hx⟩ := mem_runBy h
  have hnow := Call.now?_moments hx
  rw [helapsed] at hnow
  cases c with
  | elapse f =>
    rw [List.mem_singleton.mp hx]
  | backendRetry =>
    rw [List.mem_singleton.mp hx] at helapsed
    cases helapsed
  | _ => cases hnow

/-- **Cycles do not go back in a run** whose calls do not go back. -/
theorem pairwise_run {calls : List (Call σ)} (m : Assembly (Recorded σ))
    (h : calls.Pairwise fun c d => ∀ t ∈ c.now?, ∀ t' ∈ d.now?, t ≤ t') :
    (run calls m).Pairwise
      fun x y => ∀ t ∈ x.event.now?, ∀ t' ∈ y.event.now?, t ≤ t' := by
  -- the pieces of one call happen at one time
  have hone : ∀ (c : Call σ) (m : Assembly (Recorded σ)), (c.moments m).Pairwise
      fun x y => ∀ t ∈ x.event.now?, ∀ t' ∈ y.event.now?, t ≤ t' := by
    intro c m
    refine List.pairwise_of_forall_mem_list fun x hx y hy t ht t' ht' => ?_
    rw [Call.now?_moments hx] at ht
    rw [Call.now?_moments hy, ht] at ht'
    exact Nat.le_of_eq (Option.some.inj ht')
  unfold run
  induction calls generalizing m with
  | nil => exact .nil
  | cons c rest ih =>
    obtain ⟨hhead, hrest⟩ := List.pairwise_cons.mp h
    unfold runBy
    simp only
    split
    · exact hone c m
    · refine List.pairwise_append.mpr ⟨hone c m, ih _ hrest, fun x hx y hy t ht t' ht' => ?_⟩
      obtain ⟨d, hd, hnow⟩ := now?_run hy
      rw [Call.now?_moments hx] at ht
      rw [hnow] at ht'
      exact hhead d hd t ht t' ht'

/-! ### The pieces of a tick make up the tick -/

/-- The step that some pieces make up: it ends where they end, and fails as they
fail. -/
def outcomeOf {α : Type} (m : Assembly (Recorded σ)) (ms : List (Moment σ)) (a : α) :
    Outcome (Recorded σ) α :=
  match failureIn ms with
  | none => .ok a (endOf m ms)
  | some e => .error e (endOf m ms)

omit [Requestors σ] [Backend σ] in
theorem outcomeOf_eq_ok_iff {α : Type} {m m' : Assembly (Recorded σ)}
    {ms : List (Moment σ)} {a b : α} :
    outcomeOf m ms a = .ok b m' ↔ failureIn ms = none ∧ a = b ∧ endOf m ms = m' := by
  unfold outcomeOf
  cases failureIn ms with
  | none => simp
  | some e => simp

omit [Requestors σ] [Backend σ] in
theorem outcomeOf_eq_error_iff {α : Type} {m m' : Assembly (Recorded σ)}
    {ms : List (Moment σ)} {a : α} {e : Failure} :
    outcomeOf m ms a = .error e m' ↔ failureIn ms = some e ∧ endOf m ms = m' := by
  unfold outcomeOf
  cases failureIn ms with
  | none => simp
  | some e => simp

omit [Requestors σ] [Backend σ] in
theorem outcomeOf_cons {α : Type} {m : Assembly (Recorded σ)} {x : Moment σ}
    (h : x.event.failure? = none) (rest : List (Moment σ)) (a : α) :
    outcomeOf m (x :: rest) a = outcomeOf x.after rest a := by
  unfold outcomeOf failureIn
  rw [List.findSome?_cons, h]
  rfl

omit [Requestors σ] [Backend σ] in
/-- Going on after some pieces is going on after the step that they make up. -/
theorem outcomeOf_follow {α : Type} (m : Assembly (Recorded σ)) (ms : List (Moment σ))
    (next : Assembly (Recorded σ) → List (Moment σ)) (a : α) :
    outcomeOf m (follow m ms next) a = match outcomeOf m ms () with
      | .ok _ m' => outcomeOf m' (next m') a
      | .error e m' => .error e m' := by
  unfold follow
  cases hf : failureIn ms with
  | some e =>
    unfold outcomeOf
    rw [hf]
  | none =>
    have happend : failureIn (ms ++ next (endOf m ms)) = failureIn (next (endOf m ms)) := by
      unfold failureIn at hf ⊢
      rw [List.findSome?_append, hf, Option.none_or]
    unfold outcomeOf
    rw [hf, happend, endOf_append]

namespace Assembly

omit [Backend σ] in
/-- Draining, one answer at a time. -/
theorem drainMoments_eq (now : Nat) (m : Assembly (Recorded σ)) :
    m.drainMoments now = match m.allocator.backendPort.drain? now with
      | none => []
      | some (response, port) =>
          match (m.update fun a => { a with backendPort := port }).answer now response with
          | .error e m' => [⟨m, .answered now response (.error e), m'⟩]
          | .ok () m' => ⟨m, .answered now response (.ok ()), m'⟩ :: m'.drainMoments now := by
  rw [drainMoments]
  split
  · rename_i hd
    rw [hd]
  · rename_i response port hd
    rw [hd]
    simp only
    split
    · rename_i ha
      rw [ha]
    · rename_i ha
      rw [ha]

/-- Issuing, one turn at a time. -/
theorem turnMoments_eq (now issued : Nat) (m : Assembly (Recorded σ)) :
    m.turnMoments now issued =
      if m.allocator.backendPort.busy || m.allocator.config.maxIssuePerCycle ≤ issued then []
      else match m.issueTurn now with
        | .error e m' => [⟨m, .turned now (.error e), m'⟩]
        | .ok turn m' => ⟨m, .turned now (.ok turn), m'⟩ ::
            if turn.goesOn = true then m'.turnMoments now (issued + turn.cost) else [] := by
  rw [turnMoments]
  split
  · rfl
  · split
    · rename_i hturn
      rw [hturn]
    · rename_i turn m' hturn
      rw [hturn]
      simp only
      split <;> rfl

omit [Backend σ] in
theorem drainLoop_moments (now : Nat) (drained : Bool) (m : Assembly (Recorded σ)) :
    drainLoop now drained m =
      outcomeOf m (m.drainMoments now) (drained || !(m.drainMoments now).isEmpty) := by
  fun_induction drainLoop now drained m with
  | case1 drained m hd =>
    rw [drainMoments_eq, hd]
    simp only [List.isEmpty_nil, Bool.not_true, Bool.or_false]
    rfl
  | case2 drained m response port hd e m' ha =>
    rw [drainMoments_eq, hd]
    simp only [ha]
    rfl
  | case3 drained m response port hd m' ha ih =>
    rw [drainMoments_eq, hd]
    simp only [ha]
    rw [outcomeOf_cons rfl, ih, List.isEmpty_cons, Bool.not_false, Bool.or_true, Bool.true_or]

theorem issueLoop_moments (now issued : Nat) (m : Assembly (Recorded σ)) :
    issueLoop now issued m = outcomeOf m (m.turnMoments now issued) () := by
  fun_induction issueLoop now issued m with
  | case1 issued m hstop =>
    rw [turnMoments_eq, if_pos hstop]
    rfl
  | case2 issued m hopen e m' hturn =>
    rw [turnMoments_eq, if_neg hopen, hturn]
    rfl
  | case3 issued m hopen turn m' hturn hon ih =>
    rw [turnMoments_eq, if_neg hopen, hturn]
    simp only
    rw [outcomeOf_cons rfl, if_pos hon, ih]
  | case4 issued m hopen turn m' hturn hon =>
    rw [turnMoments_eq, if_neg hopen, hturn]
    simp only
    rw [outcomeOf_cons rfl, if_neg hon]
    rfl

theorem drain_moments (now : Nat) (m : Assembly (Recorded σ)) :
    m.drain now = outcomeOf m (m.responseMoments now) () := by
  unfold drain responseMoments
  rw [drainLoop_moments, outcomeOf_follow, Bool.false_or]
  unfold outcomeOf
  cases failureIn (m.drainMoments now) with
  | some e => rfl
  | none =>
    cases (m.drainMoments now).isEmpty with
    | true => rfl
    | false => rfl

/-- **The pieces of a tick make up the tick.** -/
theorem tick_moments (now : Nat) (m : Assembly (Recorded σ)) :
    m.tick now = outcomeOf m (m.tickMoments now) () := by
  unfold tick tickMoments
  split
  · rfl
  · rw [outcomeOf_follow, drain_moments]
    cases outcomeOf m (m.responseMoments now) () with
    | error e m₁ => rfl
    | ok _ m₁ =>
      simp only
      rw [outcomeOf_follow]
      unfold issueMoments issue
      rw [outcomeOf_cons rfl, issueLoop_moments]
      cases outcomeOf (m₁.sweepLocks now) ((m₁.sweepLocks now).turnMoments now 0) () with
      | error e m₂ => rfl
      | ok _ m₂ =>
        simp only [checkMoment]
        cases m₂.checkProgress now <;> rfl

end Assembly

end Genuine

end MemPort
