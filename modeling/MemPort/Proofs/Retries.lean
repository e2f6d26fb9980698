import MemPort.Bench.EchoMemory
import MemPort.Bench.Lanes
import MemPort.Proofs.Fronts

/-!
# A refused requestor is told once to try again

A requestor whose submission finds its queue full is owed a retry.  However
often it is refused in the meantime, it is told once, and in the very turn in
which the first transaction leaves its queue: with a request of its own, or with
one that another port was granted.

What a requestor hears of its submissions is read off the record of a run
(`signalsIn`): a refusal is the answer to a submission, and a retry is a call
that the surroundings received.

## Main definitions

* `Moment.retries`, `signalsIn` — what the requestor on a port hears.
* `Owed` — a refusal has not been followed by a retry.
* `Moment.Frees` — a piece after which fewer transactions are queued on a
  port.

## Main results

* `Owing.step` — one piece keeps the flag, the queue and what was heard in
  line.
* `retry_once` — a group of refusals is followed by exactly one retry, when
  the first slot is freed.

## References

`SPEC_FULL.md`, section 8, correctness of backpressure; sections 3 and 4.1.
-/

namespace MemPort

/-! ### What a requestor hears -/

/-- What a requestor hears of its submissions. -/
inductive Signal where
  /-- A submission was refused. -/
  | refused
  /-- It may try again. -/
  | retried
  deriving DecidableEq

/-- A refusal has not been followed by a retry. -/
def Owed (signals : List Signal) : Prop :=
  ∃ earlier later, signals = earlier ++ .refused :: later ∧ .retried ∉ later

section Signals

variable {l earlier later : List Signal}

theorem not_owed_nil : ¬ Owed [] := by
  rintro ⟨earlier, later, h, -⟩
  cases earlier <;> cases h

theorem owed_refused (l : List Signal) : Owed (l ++ [.refused]) := ⟨l, [], rfl, nofun⟩

theorem not_owed_retried (l : List Signal) : ¬ Owed (l ++ [.retried]) := by
  rintro ⟨earlier, later, h, hnone⟩
  rcases eq_or_of_concat_eq h with ⟨-, hlast, -⟩ | ⟨rest, hlater, -⟩
  · cases hlast
  · rw [hlater] at hnone
    exact hnone (List.mem_append_right _ (List.mem_singleton_self _))

/-- Every retry comes after a refusal, with no retry in between. -/
def Answering (signals : List Signal) : Prop :=
  ∀ earlier later, signals = earlier ++ .retried :: later → Owed earlier

theorem answering_nil : Answering [] := by
  intro earlier later h
  cases earlier <;> cases h

theorem Answering.concat {l : List Signal} {x : Signal} (h : Answering l)
    (hx : x = .retried → Owed l) : Answering (l ++ [x]) := by
  intro earlier later heq
  rcases eq_or_of_concat_eq heq with ⟨rfl, hlast, -⟩ | ⟨rest, -, hbefore⟩
  · exact hx hlast.symm
  · exact h earlier rest hbefore

end Signals

section Hearing

variable {σ : Type}

/-- The calls made to the surroundings in a piece of a run, in order. -/
def Moment.calls (x : Moment σ) : List Contact :=
  x.after.surroundings.history.drop x.before.surroundings.history.length

/-- How often the requestor on a port is told to try again in a piece of a run. -/
def Moment.retries (port : Nat) (x : Moment σ) : Nat := x.calls.count (.retried port)

/-- What the requestor on a port hears in a piece of a run. -/
def Moment.signals (port : Nat) (x : Moment σ) : List Signal :=
  (if x.event.refuses port then [.refused] else []) ++ List.replicate (x.retries port) .retried

/-- What the requestor on a port hears in some pieces of a run. -/
def signalsIn (port : Nat) (ms : List (Moment σ)) : List Signal := ms.flatMap (Moment.signals port)

/-- After a piece of a run, fewer transactions are queued on a port. -/
def Moment.Frees (port : Nat) (x : Moment σ) : Prop :=
  (x.after.allocator.queuedOn port).length < (x.before.allocator.queuedOn port).length

instance (port : Nat) (x : Moment σ) : Decidable (x.Frees port) :=
  inferInstanceAs (Decidable (_ < _))

theorem Tells.retries_eq {x : Moment σ} {port n : Nat}
    (h : Tells port x.before.surroundings x.after.surroundings n) : x.retries port = n := by
  obtain ⟨cs, hcs, rfl⟩ := h
  unfold Moment.retries Moment.calls Recorded.history
  rw [hcs, List.reverse_append, List.length_reverse, List.drop_left' (List.length_reverse ..),
    List.count_reverse]

/-- What one piece does to a front end, in the terms of the record. -/
theorem Moment.Genuine.frontStep [Requestors σ] [Backend σ] {x : Moment σ} (h : x.Genuine)
    (hok : x.event.isBroken = false) {port : Nat} {p : RequestorPort}
    (hp : x.before.allocator.ports[port]? = some p) :
    ∃ p', x.after.allocator.ports[port]? = some p' ∧
      FrontStep port x.event (x.retries port) p p' := by
  obtain ⟨p', n, hp', htells, hstep⟩ := fronted_of_genuine h hok port p hp
  rw [← htells.retries_eq] at hstep
  exact ⟨p', hp', hstep⟩

end Hearing

/-! ### One piece -/

/-- The flag of a front end says what its requestor has heard, and is set on a
full queue only. -/
structure Owing (signals : List Signal) (p : RequestorPort) : Prop where
  /-- The flag is set exactly when a refusal has not been followed by a retry. -/
  flag : p.needsRetry = true ↔ Owed signals
  /-- While it is set, the queue is full. -/
  full : p.needsRetry = true → p.queue.isFull = true
  /-- No retry came without a refusal since the one before. -/
  answering : Answering signals

/-- **One piece keeps the flag in line** with what the requestor has heard. -/
theorem Owing.step {σ : Type} {port : Nat} {x : Moment σ} {p p' : RequestorPort}
    {signals : List Signal} (h : Owing signals p)
    (hstep : FrontStep port x.event (x.retries port) p p') :
    Owing (signals ++ x.signals port) p' := by
  unfold Moment.signals
  generalize x.retries port = n at hstep
  cases hstep with
  | kept hqueue howed _ _ hrefused =>
    rw [hrefused]
    simp only [Bool.false_eq_true, if_false, List.replicate_zero, List.append_nil]
    refine ⟨howed ▸ h.flag, fun hflag => ?_, h.answering⟩
    rw [hqueue]
    exact h.full (howed ▸ hflag)
  | admitted he hpush =>
    rw [he]
    simp only [Event.refuses, Bool.false_eq_true, if_false, List.replicate_zero, List.append_nil]
    refine ⟨h.flag, fun hflag => ?_, h.answering⟩
    -- a full queue admits nothing
    rw [(TimedQueue.push?_eq_none_iff _ _ _).mpr (h.full hflag)] at hpush
    cases hpush
  | refused he hpush =>
    rw [he]
    simp only [Event.refuses, beq_self_eq_true, if_true, List.replicate_zero, List.append_nil]
    refine ⟨iff_of_true rfl (owed_refused signals), fun _ => ?_, h.answering.concat nofun⟩
    exact (TimedQueue.push?_eq_none_iff _ _ _).mp hpush
  | retired he _ _ howed _ =>
    rw [he]
    simp only [Event.refuses, Bool.false_eq_true, if_false, List.nil_append]
    cases hflag : p.needsRetry with
    | false =>
      simp only [Bool.false_eq_true, if_false, List.replicate_zero, List.append_nil]
      have hnot : ¬ Owed signals := fun hsignals => by
        rw [h.flag.mpr hsignals] at hflag
        cases hflag
      have hclear : p'.needsRetry ≠ true := Bool.eq_false_iff.mp howed
      exact ⟨iff_of_false hclear hnot, fun hflag' => absurd hflag' hclear, h.answering⟩
    | true =>
      simp only [if_true, List.replicate_one]
      have hclear : p'.needsRetry ≠ true := Bool.eq_false_iff.mp howed
      exact ⟨iff_of_false hclear (not_owed_retried signals), fun hflag' => absurd hflag' hclear,
        h.answering.concat fun _ => h.flag.mp hflag⟩

/-- **A slot is freed exactly where the head of the port is served**, and then
the requestor is told once if it was refused.  Otherwise it is told nothing. -/
theorem FrontStep.frees {port n : Nat} {e : Event} {p p' : RequestorPort}
    (h : FrontStep port e n p p') :
    (p'.length < p.length ↔ ∃ o ∈ e.served, o.2.port = port) ∧
      (p'.length < p.length → n = (if p.needsRetry = true then 1 else 0) ∧
        ∃ now turn, e = .turned now (.ok turn)) ∧
      (¬ p'.length < p.length → n = 0 ∧ (p.needsRetry = true → p'.needsRetry = true)) := by
  -- a queue that is no shorter has lost no head
  have hlonger : ∀ {e : Event} {p p' : RequestorPort}, p.length ≤ p'.length →
      (∀ o ∈ e.served, o.2.port ≠ port) →
      (p'.length < p.length ↔ ∃ o ∈ e.served, o.2.port = port) := fun hle hnone =>
    iff_of_false (Nat.not_lt.mpr hle) fun ⟨o, ho, hport⟩ => hnone o ho hport
  cases h with
  | kept hqueue howed _ hserved _ =>
    have hlength : p'.length = p.length := congrArg TimedQueue.length hqueue
    exact ⟨hlonger (Nat.le_of_eq hlength.symm) hserved, fun hlt => by omega,
      fun _ => ⟨rfl, fun hflag => howed.trans hflag⟩⟩
  | @admitted _ now txn queue he hpush =>
    have hlength : p.length ≤ queue.length := by
      unfold RequestorPort.length TimedQueue.length
      rw [(TimedQueue.entries_push? hpush).1, List.length_append]
      omega
    rw [he]
    exact ⟨hlonger hlength nofun, fun hlt => absurd hlength (Nat.not_le.mpr hlt),
      fun _ => ⟨rfl, id⟩⟩
  | refused he hpush =>
    rw [he]
    exact ⟨hlonger (Nat.le_refl p.length) nofun, fun hlt => absurd hlt (Nat.lt_irrefl p.length),
      fun _ => ⟨rfl, fun _ => rfl⟩⟩
  | retired he hserved hpop _ _ =>
    have hlength : p.length = p'.length + 1 := TimedQueue.length_pop? hpop
    exact ⟨iff_of_true (by omega) hserved, fun _ => ⟨rfl, _, _, he⟩, fun hle => by omega⟩

/-! ### Runs -/

section Runs

variable {σ : Type} [Requestors σ] [Backend σ]

/-- Front ends stay in line over a run. -/
theorem Linked.owing {m : Assembly (Recorded σ)} {ms : List (Moment σ)} (h : Linked m ms)
    (hok : Unbroken ms) {port : Nat} {p : RequestorPort} {signals : List Signal}
    (hp : m.allocator.ports[port]? = some p) (howing : Owing signals p) :
    ∃ p', (endOf m ms).allocator.ports[port]? = some p' ∧
      Owing (signals ++ signalsIn port ms) p' := by
  refine Linked.induct (P := fun pre m' => ∃ p', m'.allocator.ports[port]? = some p' ∧
    Owing (signals ++ signalsIn port pre) p') (R := fun _ => True) ?_ ?_ h hok fun _ _ => trivial
  · refine ⟨p, hp, ?_⟩
    unfold signalsIn
    rwa [List.flatMap_nil, List.append_nil]
  · rintro pre x ⟨p₁, hp₁, howing₁⟩ hx hokx -
    obtain ⟨p₂, hp₂, hstep⟩ := hx.frontStep hokx hp₁
    refine ⟨p₂, hp₂, ?_⟩
    unfold signalsIn at howing₁ ⊢
    rw [List.flatMap_append, List.flatMap_singleton, ← List.append_assoc]
    exact howing₁.step hstep

/-- While no slot is freed, a requestor that was refused hears of no retry and
is still owed one. -/
theorem Linked.owed_until {m : Assembly (Recorded σ)} {ms : List (Moment σ)} (h : Linked m ms)
    (hok : Unbroken ms) {port : Nat} {p : RequestorPort}
    (hp : m.allocator.ports[port]? = some p) (hflag : p.needsRetry = true)
    (hfull : ∀ z ∈ ms, ¬ z.Frees port) :
    (∃ p', (endOf m ms).allocator.ports[port]? = some p' ∧ p'.needsRetry = true) ∧
      ∀ z ∈ ms, z.retries port = 0 := by
  refine Linked.induct (P := fun pre m' =>
      (∃ p', m'.allocator.ports[port]? = some p' ∧ p'.needsRetry = true) ∧
        ∀ z ∈ pre, z.retries port = 0)
    (R := fun z => ¬ z.Frees port) ⟨⟨p, hp, hflag⟩, List.forall_mem_nil _⟩ ?_ h hok hfull
  rintro pre x ⟨⟨p₁, hp₁, hflag₁⟩, hpre⟩ hx hokx hfrees
  obtain ⟨p₂, hp₂, hstep⟩ := hx.frontStep hokx hp₁
  unfold Moment.Frees at hfrees
  rw [Allocator.length_queuedOn hp₁, Allocator.length_queuedOn hp₂] at hfrees
  obtain ⟨hnone, hstill⟩ := hstep.frees.2.2 hfrees
  refine ⟨⟨p₂, hp₂, hstill hflag₁⟩, fun z hz => ?_⟩
  rcases List.mem_append.mp hz with hz | hz
  · exact hpre z hz
  · rw [List.mem_singleton.mp hz]
    exact hnone

omit [Requestors σ] [Backend σ] in
/-- A new allocator owes nobody a retry. -/
theorem owing_new {config : AllocatorConfig} {a : Allocator}
    (hnew : Allocator.new config = .ok a) {port : Nat} (hport : port < config.numPorts) :
    ∃ p, a.ports[port]? = some p ∧ Owing [] p := by
  rw [(Allocator.eq_of_new hnew).2]
  refine ⟨.ofLatency port (config.portLatency port), ?_, ?_⟩
  · unfold Allocator.ofConfig
    simp only
    rw [List.getElem?_map, List.getElem?_range hport]
    rfl
  · have hclear : ¬ (RequestorPort.ofLatency port (config.portLatency port)).needsRetry = true :=
      Bool.false_ne_true
    exact ⟨iff_of_false hclear not_owed_nil, fun hflag => absurd hflag hclear, answering_nil⟩

/-- **A refused requestor is told exactly once to try again.**  At every point
of a run:

* the flag of a port is set exactly when a submission on it was refused since
  its requestor was last told to try again, and then its queue is full;
* no requestor was told to try again without a refusal since it was last told;
* a slot is freed exactly where the head of the port is behind a request that
  goes out or joins one in flight, whichever port was granted;
* after a refusal its requestor hears of no retry until the first slot is freed,
  and of one retry in the very turn that frees it. -/
theorem retry_once {config : AllocatorConfig} {a : Allocator}
    (hnew : Allocator.new config = .ok a) (s : σ) (j : Journal) (calls : List (Call σ))
    {ms : List (Moment σ)} (hrun : ms <+: run calls ⟨a, .start s, j⟩) (hok : Unbroken ms)
    {port : Nat} (hport : port < config.numPorts) :
    (∃ p, (endOf ⟨a, .start s, j⟩ ms).allocator.ports[port]? = some p ∧
      (p.needsRetry = true ↔ Owed (signalsIn port ms)) ∧
      (p.needsRetry = true → p.queue.isFull = true)) ∧
    (∀ earlier later, signalsIn port ms = earlier ++ .retried :: later → Owed earlier) ∧
    (∀ x ∈ ms, x.Frees port ↔ ∃ o ∈ x.event.served, o.2.port = port) ∧
    ∀ pre x mid y post, ms = pre ++ x :: (mid ++ y :: post) → x.event.refuses port = true →
      (∀ z ∈ mid, ¬ z.Frees port) → y.Frees port →
      (∀ z ∈ mid, z.retries port = 0) ∧ y.retries port = 1 ∧
        ∃ now turn, y.event = .turned now (.ok turn) := by
  have hlinked := (linked_run calls ⟨a, .start s, j⟩).initial hrun
  obtain ⟨p₀, hp₀, howing₀⟩ := owing_new hnew hport
  -- the front end of the port before a piece
  have hbefore : ∀ pre x post, ms = pre ++ x :: post → ∃ p,
      x.before.allocator.ports[port]? = some p ∧ x.Genuine ∧ x.event.isBroken = false := by
    intro pre x post heq
    rw [heq] at hlinked
    obtain ⟨hpre, hokpre, hx, hgenuine, -⟩ := hlinked.split_cons
    obtain ⟨p, hp, -⟩ := hpre.owing hokpre hp₀ howing₀
    rw [← hx] at hp
    refine ⟨p, hp, hgenuine, hok x ?_⟩
    rw [heq]
    exact List.mem_append_right _ List.mem_cons_self
  refine ⟨?_, ?_, ?_, ?_⟩
  · obtain ⟨p, hp, howing⟩ := hlinked.owing hok hp₀ howing₀
    exact ⟨p, hp, howing.flag, howing.full⟩
  · obtain ⟨p, -, howing⟩ := hlinked.owing hok hp₀ howing₀
    exact howing.answering
  · intro x hx
    obtain ⟨pre, post, heq⟩ := List.append_of_mem hx
    obtain ⟨p, hp, hgenuine, hokx⟩ := hbefore pre x post heq
    obtain ⟨p', hp', hstep⟩ := hgenuine.frontStep hokx hp
    unfold Moment.Frees
    rw [Allocator.length_queuedOn hp, Allocator.length_queuedOn hp']
    exact hstep.frees.1
  · intro pre x mid y post heq hrefuses hmid hy
    obtain ⟨p, hp, hgenuine, hokx⟩ := hbefore pre x _ heq
    obtain ⟨p', hp', hstep⟩ := hgenuine.frontStep hokx hp
    -- the refusal sets the flag
    have hflag : p'.needsRetry = true := by
      generalize x.retries port = n at hstep
      cases hstep with
      | kept _ _ _ _ hrefused =>
        rw [hrefused] at hrefuses
        cases hrefuses
      | admitted he _ =>
        rw [he] at hrefuses
        cases hrefuses
      | refused _ _ => rfl
      | retired he _ _ _ _ =>
        rw [he] at hrefuses
        cases hrefuses
    rw [heq] at hlinked hok
    obtain ⟨-, -, -, -, htail⟩ := hlinked.split_cons
    obtain ⟨hmidlinked, hokmid, hybefore, hygenuine, -⟩ := htail.split_cons
    obtain ⟨⟨p₁, hp₁, hflag₁⟩, hnone⟩ := hmidlinked.owed_until hokmid hp' hflag hmid
    rw [← hybefore] at hp₁
    have hoky : y.event.isBroken = false := hok y (by simp)
    obtain ⟨p₂, hp₂, hstep₂⟩ := hygenuine.frontStep hoky hp₁
    unfold Moment.Frees at hy
    rw [Allocator.length_queuedOn hp₁, Allocator.length_queuedOn hp₂] at hy
    obtain ⟨hone, hturn⟩ := hstep₂.frees.2.1 hy
    rw [if_pos hflag₁] at hone
    exact ⟨hnone, hone, hturn⟩

end Runs

/-- Two lanes load the same line; the second is refused twice before the first
one's turn takes the heads of both. -/
def crowdedLoads : List (Call (Lanes × EchoMemory)) :=
  [.submit 0 0 (.load .read 1 64 4), .submit 0 1 (.load .read 2 72 4),
    .submit 0 1 (.load .read 3 80 4), .submit 0 1 (.load .read 4 80 4), .tick 0]

/-- Where the two lanes begin. -/
def crowdedLoadsStart : Assembly (Recorded (Lanes × EchoMemory)) :=
  ⟨.ofConfig { numPorts := 2, requestLatency := 0, enableCoalescing := true },
    .start (Lanes.plain 2, EchoMemory.new false), .start .warn⟩

/-- The second lane is told once, in the turn that another port was granted. -/
theorem retry_once_crowdedLoads : ∃ y ∈ run crowdedLoads crowdedLoadsStart,
    y.retries 1 = 1 ∧ y.Frees 1 ∧
      signalsIn 1 (run crowdedLoads crowdedLoadsStart) = [.refused, .refused, .retried] := by
  obtain ⟨x, hx⟩ : ∃ x, (run crowdedLoads crowdedLoadsStart)[2]? = some x :=
    Option.isSome_iff_exists.mp (by decide +kernel)
  obtain ⟨y, hy⟩ : ∃ y, ((run crowdedLoads crowdedLoadsStart).drop 3)[2]? = some y :=
    Option.isSome_iff_exists.mp (by decide +kernel)
  have hsplit := eq_of_piece hx
  rw [eq_of_piece hy] at hsplit
  have hnew : Allocator.new { numPorts := 2, requestLatency := 0, enableCoalescing := true } =
      .ok crowdedLoadsStart.allocator := by rfl
  obtain ⟨-, -, -, honce⟩ :=
    retry_once hnew (Lanes.plain 2, EchoMemory.new false) (.start .warn)
    crowdedLoads List.prefix_rfl (by decide +kernel) (by decide : 1 < 2)
  have hrefuses : (run crowdedLoads crowdedLoadsStart)[2]?.any (·.event.refuses 1) = true := by
    decide +kernel
  rw [hx] at hrefuses
  have hfull : ∀ z ∈ ((run crowdedLoads crowdedLoadsStart).drop 3).take 2, ¬ z.Frees 1 := by
    decide +kernel
  have hfrees : ((run crowdedLoads crowdedLoadsStart).drop 3)[2]?.all fun y =>
      decide (y.Frees 1) := by decide +kernel
  rw [hy] at hfrees
  have hfrees : y.Frees 1 := of_decide_eq_true hfrees
  obtain ⟨-, hone, -⟩ := honce _ x _ y _ hsplit hrefuses hfull hfrees
  refine ⟨y, ?_, hone, hfrees, by decide +kernel⟩
  rw [hsplit]
  exact List.mem_append_right _ (List.mem_cons_of_mem _
    (List.mem_append_right _ List.mem_cons_self))

end MemPort
