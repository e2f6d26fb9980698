import MemPort.Bench.Lanes
import MemPort.Proofs.Ledger

/-!
# No party waits for a call that the other does not owe it

An allocator and its memory refuse each other twice: the memory refuses
requests, and the allocator refuses answers.  Either way the party that was
refused waits for a call, and the other remembers that it owes one, so that two
flags stand for one debt.

A debt of the memory is made where it refuses a request because all its accesses
are in flight, and is settled by the memory itself, in its part of a cycle, once
there is room.  A debt of the allocator is made in the memory's part of a cycle,
where the queue of answers is full, and is settled by the allocator once it has
drained an answer.  In between the two flags stay together, and the queue that
caused the debt stays full.

## Main definitions

* `RequestsAgree`, `AnswersAgree` — the two flags of a debt agree, and the
  queue that caused it is full.
* `Assembly.InTouch` — both hold of a system.

## Main results

* `inTouch_memoryTick`, `inTouch_turned`, `inTouch_drain` — the parts of a
  cycle that make or settle debts.
* `no_lost_call` — a system is in touch between any two acts.

## References

`SPEC_FULL.md`, sections 4.2 and 10.7: refused requests; section 10.6, item 1:
refused responses.
-/

namespace MemPort

/-- The port is busy exactly while the memory owes it a call, and then the
memory is full. -/
structure RequestsAgree (p : BackendPort) (d : DelayedMemory) : Prop where
  /-- The two flags agree. -/
  flags : p.busy = d.oweRetry
  /-- All accesses are in flight. -/
  full : d.oweRetry = true → d.inflight.isFull = true

/-- The memory is blocked exactly while the port owes it a call, and then the
queue of answers is full. -/
structure AnswersAgree (p : BackendPort) (d : DelayedMemory) : Prop where
  /-- The two flags agree. -/
  flags : d.responseBlocked = p.needRetry
  /-- No more answers can wait. -/
  full : p.needRetry = true → p.responses.isFull = true

/-! ### The memory takes a request -/

namespace DelayedMemory

variable {d d' : DelayedMemory} {request : BackendRequest}

theorem flags_storeFor (h : d.storeFor request = .ok d') :
    d'.oweRetry = d.oweRetry ∧ d'.responseBlocked = d.responseBlocked := by
  obtain ⟨memory, -, rfl⟩ := exists_of_map_eq_ok h
  exact ⟨rfl, rfl⟩

/-- An access makes no debt and settles none. -/
theorem flags_access {l : Logged (BackendResponse × DelayedMemory)}
    (h : d.access request = .ok l) :
    l.value.2.oweRetry = d.oweRetry ∧ l.value.2.responseBlocked = d.responseBlocked := by
  unfold access at h
  split at h
  · rename_i r hperform
    cases h
    obtain ⟨answer, d'⟩ := r
    cases performed_of_perform hperform with
    | loaded _ _ => exact ⟨rfl, rfl⟩
    | reserved _ _ => exact ⟨rfl, rfl⟩
    | lost _ _ => exact ⟨rfl, rfl⟩
    | stored _ hstore => exact flags_storeFor hstore
    | swapped _ _ hstore => exact flags_storeFor hstore
    | kept _ _ hstore => exact flags_storeFor hstore
  · cases h
  · cases h
    exact ⟨rfl, rfl⟩

/-- A request that is accepted makes no debt, and one that is refused does,
because all accesses are in flight. -/
theorem flags_accept {now : Nat} {accepted : Bool} {notices : List Notice}
    (h : d.accept now request = .ok ⟨(accepted, d'), notices⟩) :
    d'.responseBlocked = d.responseBlocked ∧
      (accepted = true → d'.oweRetry = d.oweRetry) ∧
      (accepted = false → d'.oweRetry = true ∧ d'.inflight.isFull = true) := by
  obtain ⟨rfl, hfull, rfl⟩ | ⟨l, inflight, rfl, haccess, -, rfl⟩ := accept_cases h
  · exact ⟨rfl, nofun, fun _ => ⟨rfl, hfull⟩⟩
  · obtain ⟨howe, hblocked⟩ := flags_access haccess
    exact ⟨hblocked, fun _ => howe, nofun⟩

end DelayedMemory

/-! ### The memory's part of a cycle -/

/-- An answer that the allocator takes makes no debt, and one that it refuses
does, because no more can wait. -/
theorem Allocator.flags_receive (a : Allocator) (now : Nat) (response : BackendResponse) :
    (a.receive now response).value.2.backendPort.busy = a.backendPort.busy ∧
      ((a.receive now response).value.1 = true →
        (a.receive now response).value.2.backendPort.needRetry = a.backendPort.needRetry) ∧
      ((a.receive now response).value.1 = false →
        (a.receive now response).value.2.backendPort.needRetry = true ∧
          (a.receive now response).value.2.backendPort.responses.isFull = true) := by
  unfold receive BackendPort.receive
  cases hpush : a.backendPort.responses.push? now response with
  | none =>
    have hfull := (TimedQueue.push?_eq_none_iff _ _ _).mp hpush
    exact ⟨rfl, nofun, fun _ => ⟨rfl, hfull⟩⟩
  | some responses => exact ⟨rfl, fun _ => rfl, nofun⟩

namespace DelayedMemory

/-- Where answers are offered, a debt is made only by the one that is refused. -/
theorem answersAgree_offerAnswers (now : Nat) (d : DelayedMemory) (a : Allocator)
    (h : AnswersAgree a.backendPort d) :
    AnswersAgree (d.offerAnswers now a).value.2.backendPort (d.offerAnswers now a).value.1 ∧
      (d.offerAnswers now a).value.2.backendPort.busy = a.backendPort.busy ∧
      (d.offerAnswers now a).value.1.oweRetry = d.oweRetry := by
  fun_induction offerAnswers now d a with
  | case1 d a _ => exact ⟨h, rfl, rfl⟩
  | case2 d a _ _ => exact ⟨h, rfl, rfl⟩
  | case3 d a hopen head inflight _ offered htaken m m' ih =>
    obtain ⟨hbusy, hsame, -⟩ := a.flags_receive now head.payload
    have hneed : offered.value.2.backendPort.needRetry = false :=
      (hsame htaken).trans (h.flags.symm.trans (Bool.eq_false_iff.mpr hopen))
    -- the memory was not blocked, so nothing was owed
    have hfirst : AnswersAgree offered.value.2.backendPort m' := by
      refine ⟨?_, fun hflag => ?_⟩
      · rw [hneed]
        exact Bool.eq_false_iff.mpr hopen
      · rw [hneed] at hflag
        cases hflag
    obtain ⟨hagree, hbusy', howe⟩ := ih offered.value hfirst
    rw [Logged.value_andThen]
    exact ⟨hagree, hbusy'.trans hbusy, howe⟩
  | case4 d a hopen head inflight _ offered htaken m m' =>
    obtain ⟨hbusy, -, hrefused⟩ := a.flags_receive now head.payload
    obtain ⟨hneed, hfull⟩ := hrefused (Bool.eq_false_iff.mpr htaken)
    rw [Logged.value_andThen]
    exact ⟨⟨hneed.symm, fun _ => hfull⟩, hbusy, rfl⟩

/-- **The memory's part of a cycle** settles its debt once there is room. -/
theorem agree_tick (now : Nat) (d : DelayedMemory) (a : Allocator)
    (hrequests : RequestsAgree a.backendPort d) (hanswers : AnswersAgree a.backendPort d) :
    RequestsAgree (d.tick now a).value.2.backendPort (d.tick now a).value.1 ∧
      AnswersAgree (d.tick now a).value.2.backendPort (d.tick now a).value.1 := by
  obtain ⟨hagree, hbusy, howe⟩ := answersAgree_offerAnswers now d a hanswers
  have hflags := hrequests.flags
  unfold tick
  rw [Logged.value_andThen]
  generalize (d.offerAnswers now a).value = r at hagree hbusy howe ⊢
  obtain ⟨d₁, a₁⟩ := r
  unfold settleRetry
  split
  · exact ⟨⟨rfl, nofun⟩, ⟨hagree.flags, hagree.full⟩⟩
  · rename_i hkeep
    refine ⟨⟨hbusy.trans (hflags.trans howe.symm), fun howes => ?_⟩, hagree⟩
    -- the debt stays only where there is still no room
    have howes : d₁.oweRetry = true := howes
    simp only [howes, Bool.true_and, Bool.not_eq_true', Bool.not_eq_false] at hkeep
    exact hkeep

end DelayedMemory

section System

variable {ρ : Type} [Requestors ρ]

namespace Assembly

/-- Both debts are known to both parties, and stand only while a queue is full. -/
structure InTouch (m : System ρ) : Prop where
  /-- Requests that the memory refused. -/
  requests : RequestsAgree m.allocator.backendPort m.memory
  /-- Answers that the allocator refused. -/
  answers : AnswersAgree m.allocator.backendPort m.memory

omit [Requestors ρ] in
/-- Nothing else matters than the backend port and the memory. -/
theorem InTouch.congr {m m' : System ρ} (h : m.InTouch)
    (hport : m'.allocator.backendPort = m.allocator.backendPort) (hmemory : m'.memory = m.memory) :
    m'.InTouch := by
  constructor
  · rw [hport, hmemory]
    exact h.requests
  · rw [hport, hmemory]
    exact h.answers

omit [Requestors ρ] in
theorem inTouch_memoryTick {m : System ρ} (h : m.InTouch) (now : Nat) :
    (m.memoryTick now).InTouch := by
  obtain ⟨hrequests, hanswers⟩ := m.memory.agree_tick now m.allocator h.requests h.answers
  exact ⟨hrequests, hanswers⟩

omit [Requestors ρ] in
theorem inTouch_submit {m : System ρ} (h : m.InTouch) (now port : Nat) (txn : Transaction) :
    (m.submit now port txn).left.InTouch := by
  unfold submit
  split
  · exact h
  · rename_i l hl
    obtain ⟨⟨ports, stats, ha⟩, -⟩ := Allocator.queuedOn_submit hl
    refine h.congr ?_ rfl
    show l.value.2.backendPort = _
    rw [ha]

/-! ### The allocator's part of a cycle -/

/-- Draining without failure leaves the flags and the memory alone, and the port
as well if there was no answer. -/
theorem frame_drainLoop {m m' : System ρ} {now : Nat} {before drained : Bool}
    (h : drainLoop now before m = .ok drained m') :
    m'.memory = m.memory ∧ m'.allocator.backendPort.busy = m.allocator.backendPort.busy ∧
      m'.allocator.backendPort.needRetry = m.allocator.backendPort.needRetry ∧
      (drained = false → before = false ∧ m'.allocator.backendPort =
        m.allocator.backendPort) := by
  fun_induction drainLoop now before m with
  | case1 before m _ =>
    cases h
    exact ⟨rfl, rfl, rfl, fun hnone => ⟨hnone, rfl⟩⟩
  | case2 before m response port hd e m₁ _ => cases h
  | case3 before m response port hd m₁ ha ih =>
    obtain ⟨hmemory, hbusy, hneed, hdrained⟩ := ih h
    obtain ⟨-, hportbusy, hportneed⟩ := BackendPort.pending_drain? hd
    have hport : m₁.allocator.backendPort = port := backendPort_answer ha
    have hanswered := memory_answer (m.update fun a => { a with backendPort := port }) now response
    rw [ha] at hanswered
    refine ⟨hmemory.trans hanswered, ?_, ?_, fun hnone => ?_⟩
    · rw [hbusy, hport, hportbusy]
    · rw [hneed, hport, hportneed]
    · cases (hdrained hnone).1

omit [Requestors ρ] in
/-- Settling the debt of an answer tells the memory of it, if there is one. -/
theorem inTouch_settleResponses {m : System ρ}
    (hrequests : RequestsAgree m.allocator.backendPort m.memory)
    (hflags : m.memory.responseBlocked = m.allocator.backendPort.needRetry) :
    m.settleResponses.InTouch := by
  unfold settleResponses
  simp only
  split
  · exact ⟨⟨hrequests.flags, hrequests.full⟩, ⟨rfl, nofun⟩⟩
  · rename_i hnone
    have hnone : m.allocator.backendPort.needRetry = false := Bool.eq_false_iff.mpr hnone
    exact ⟨⟨hrequests.flags, hrequests.full⟩, ⟨hflags.trans hnone, nofun⟩⟩

/-- **Draining** settles the debt of the allocator as soon as it makes room. -/
theorem inTouch_drain {m m' : System ρ} {now : Nat} (h : m.InTouch)
    (hd : m.drain now = .ok () m') :
    m'.InTouch := by
  unfold drain at hd
  split at hd
  · cases hd
  · rename_i m₁ hloop
    cases hd
    obtain ⟨hmemory, -, -, hsame⟩ := frame_drainLoop hloop
    exact h.congr (hsame rfl).2 hmemory
  · rename_i m₁ hloop
    cases hd
    obtain ⟨hmemory, hbusy, hneed, -⟩ := frame_drainLoop hloop
    refine inTouch_settleResponses ⟨?_, ?_⟩ ?_
    · rw [hbusy, hmemory]
      exact h.requests.flags
    · rw [hmemory]
      exact h.requests.full
    · rw [hneed, hmemory]
      exact h.answers.flags

/-- **A turn** makes a debt of the memory exactly where a request is refused. -/
theorem inTouch_turned {m m' : System ρ} {now : Nat} {result : Except Failure Turn} (h : m.InTouch)
    (hbusy : m.allocator.backendPort.busy = false) (hturned : Turned m now result m')
    (hok : ∀ a, result ≠ .error (.assertion a)) : m'.InTouch := by
  -- the memory is left alone with the surroundings
  have hkept : ∀ {m₁ : System ρ}, m₁.allocator.backendPort = m.allocator.backendPort →
      m₁.surroundings = m.surroundings → m₁.InTouch := fun hport hs =>
    h.congr hport (congrArg (fun s => s.inner.2) hs)
  cases hturned with
  | idle _ => exact h
  | parked _ _ ha _ hs =>
    obtain ⟨p, stats, -, ha⟩ := ha
    exact hkept (by rw [ha]) hs
  | spilled hcleared _ _ _ => exact hkept hcleared.backendPort_eq hcleared.surroundings
  | @served m₁ _ granted head request result hcleared _ hserved =>
    have hport := hcleared.backendPort_eq
    have hm₁ := hkept hport hcleared.surroundings
    cases hserved with
    | broken a => exact absurd rfl (hok a)
    | duplicate _ hsame _ =>
      rw [hsame]
      exact hm₁
    | folded hfolds _ =>
      obtain ⟨pending, merged, ports, stats, -, -, ha⟩ := hfolds.allocator
      exact hm₁.congr (by rw [ha]) hfolds.surroundings.memory_eq
    | refused hrefuses =>
      obtain ⟨stats, ha⟩ := hrefuses.allocator
      obtain ⟨notices, haccept⟩ := hrefuses.refused
      obtain ⟨hblocked, -, hdebt⟩ :=
        DelayedMemory.flags_accept (accept_pair (contacts_accept haccept).2)
      obtain ⟨howe, hfull⟩ := hdebt rfl
      refine ⟨⟨?_, fun _ => hfull⟩, ⟨?_, ?_⟩⟩
      · rw [ha]
        exact howe.symm
      · rw [ha]
        exact hblocked.trans hm₁.answers.flags
      · rw [ha]
        exact hm₁.answers.full
    | sent hsends _ =>
      obtain ⟨ports, stats, locks, -, ha⟩ := hsends.allocator
      obtain ⟨s, notices, haccept, hnotified⟩ := hsends.accepted
      obtain ⟨hblocked, hnodebt, -⟩ :=
        DelayedMemory.flags_accept (accept_pair (contacts_accept haccept).2)
      have hmemory : m'.memory = s.inner.2 := hnotified.memory_eq
      have howe : m'.memory.oweRetry = false := by
        rw [hmemory, hnodebt rfl]
        exact hm₁.requests.flags.symm.trans ((congrArg BackendPort.busy hport).trans hbusy)
      refine ⟨⟨?_, fun hflag => ?_⟩, ⟨?_, ?_⟩⟩
      · rw [ha, howe]
        exact (congrArg BackendPort.busy hport).trans hbusy
      · rw [howe] at hflag
        cases hflag
      · rw [ha, hmemory]
        exact hblocked.trans hm₁.answers.flags
      · rw [ha]
        exact hm₁.answers.full

theorem inTouch_issueLoop {m m' : System ρ} {now issued : Nat} (h : m.InTouch)
    (hi : issueLoop now issued m = .ok () m') : m'.InTouch := by
  fun_induction issueLoop now issued m with
  | case1 issued m _ =>
    cases hi
    exact h
  | case2 issued m _ e m₁ _ => cases hi
  | case3 issued m hopen turn m₁ hturn _ ih =>
    have hbusy := Allocator.not_busy hopen
    have hturned := turned_of_issueTurn hbusy hturn
    exact ih (inTouch_turned h hbusy hturned (ok_ne_assertion turn)) hi
  | case4 issued m hopen turn m₁ hturn _ =>
    have hbusy := Allocator.not_busy hopen
    have hturned := turned_of_issueTurn hbusy hturn
    cases hi
    exact inTouch_turned h hbusy hturned (ok_ne_assertion turn)

/-- **A cycle that does not fail** leaves a system in touch. -/
theorem inTouch_tick {m m' : System ρ} {now : Nat} (h : m.InTouch) (ht : m.tick now = .ok () m') :
    m'.InTouch := by
  unfold tick at ht
  split at ht
  · cases ht
  · split at ht
    · cases ht
    · rename_i m₁ hdrain
      split at ht
      · cases ht
      · rename_i m₂ hissue
        have hdrained := inTouch_drain h hdrain
        have hswept : (m₁.sweepLocks now).InTouch := by
          cases effect_of_genuine (.swept m₁ now) rfl with
          | swept ha _ hs =>
            obtain ⟨ports, stats, ha⟩ := ha
            exact hdrained.congr (by rw [ha]) (congrArg (fun s => s.inner.2) hs)
        have hissued : m₂.InTouch := inTouch_issueLoop hswept hissue
        obtain ⟨⟨next, ha⟩, hs⟩ := m₂.frame_checkProgress now
        rw [ht] at ha hs
        exact hissued.congr (by rw [show m'.allocator = _ from ha])
          (congrArg (fun s => s.inner.2) hs)

/-! ### Runs -/

/-- An act that does not fail leaves a system in touch. -/
theorem inTouch_act {m : System ρ} (h : m.InTouch) (c : Act)
    (hok : ∀ x ∈ c.moments m, x.event.failure? = none) : (endOf m (c.moments m)).InTouch := by
  cases c with
  | submit now port txn => exact inTouch_submit h now port txn
  | memoryTick now => exact inTouch_memoryTick h now
  | tick now =>
    have hnone : failureIn (m.tickMoments now) = none := List.findSome?_eq_none_iff.mpr hok
    have htick : m.tick now = .ok () (endOf m (m.tickMoments now)) := by
      rw [tick_moments, outcomeOf_eq_ok_iff]
      exact ⟨hnone, rfl, rfl⟩
    exact inTouch_tick h htick

theorem inTouch_play {m : System ρ} (h : m.InTouch) (acts : List Act)
    (hok : ∀ x ∈ play acts m, x.event.failure? = none) : (endOf m (play acts m)).InTouch := by
  unfold play at hok ⊢
  induction acts generalizing m with
  | nil => exact h
  | cons c rest ih =>
    unfold runBy at hok ⊢
    simp only at hok ⊢
    split at hok
    · rename_i hbroken
      rw [if_pos hbroken]
      exact inTouch_act h c hok
    · rename_i hgoes
      rw [if_neg hgoes, endOf_append]
      refine ih (inTouch_act h c fun x hx => hok x (List.mem_append_left _ hx)) fun x hx => ?_
      exact hok x (List.mem_append_right _ hx)

end Assembly

/-- **No party waits for a call that the other does not owe it.**  Let a new
allocator and a memory that owes no call and waits for none work together, in
whatever order transactions are submitted and cycles of either pass, and suppose
that nothing fails.  Then:

* the backend port is busy exactly while the memory owes it a call, and then all
  accesses of the memory are in flight;
* the memory is blocked exactly while the port owes it a call, and then the
  queue of answers is full. -/
theorem no_lost_call {config : AllocatorConfig} {a : Allocator}
    (hnew : Allocator.new config = .ok a) (r : ρ) {d : DelayedMemory} (howe : d.oweRetry = false)
    (hblocked : d.responseBlocked = false) (j : Journal) (acts : List Act)
    (hok : ∀ x ∈ play acts ⟨a, .start (r, d), j⟩, x.event.failure? = none) :
    (endOf ⟨a, .start (r, d), j⟩ (play acts ⟨a, .start (r, d), j⟩)).InTouch := by
  refine Assembly.inTouch_play ?_ acts hok
  rw [(Allocator.eq_of_new hnew).2]
  refine ⟨⟨howe.symm, fun hflag => ?_⟩, ⟨hblocked, nofun⟩⟩
  have hflag : d.oweRetry = true := hflag
  rw [howe] at hflag
  cases hflag

end System

/-- Four lanes store to lines of their own, to a memory of one access whose
answers are not drained: the third answer finds two before it, and the fourth
request the third access. -/
def bothRefused : List Act :=
  [.submit 0 0 (.store .write 1 0 [1, 2, 3, 4]), .submit 0 1 (.store .write 2 64 [1, 2, 3, 4]),
    .submit 0 2 (.store .write 3 128 [1, 2, 3, 4]), .submit 0 3 (.store .write 4 192 [1, 2, 3, 4]),
    .tick 0, .memoryTick 0, .tick 0, .memoryTick 0, .tick 0, .memoryTick 0, .tick 0]

/-- A memory of one access, without latency. -/
def oneAccess : DelayedMemory where
  config := { latency := 0, capacity := 1 }
  memory := .ofSize 256
  inflight := .ofConfig ⟨0, 1⟩
  reservations := ∅
  oweRetry := false
  responseBlocked := false
  fault := none
  stats := {}

/-- Where the four lanes begin. -/
def bothRefusedStart : System Lanes :=
  ⟨.ofConfig { numPorts := 4, requestLatency := 0, responseLatency := 1 },
    .start (Lanes.plain 4, oneAccess), .start .warn⟩

/-- Each party waits for the other, and each knows of it. -/
theorem no_lost_call_bothRefused :
    (endOf bothRefusedStart (play bothRefused bothRefusedStart)).InTouch ∧
      (endOf bothRefusedStart
        (play bothRefused bothRefusedStart)).allocator.backendPort.busy = true ∧
      (endOf bothRefusedStart
        (play bothRefused bothRefusedStart)).allocator.backendPort.needRetry = true := by
  have hnew : Allocator.new { numPorts := 4, requestLatency := 0, responseLatency := 1 } =
      .ok bothRefusedStart.allocator := by rfl
  have htouch :=
    no_lost_call hnew (Lanes.plain 4) (d := oneAccess) rfl rfl (.start .warn) bothRefused
    (by decide +kernel)
  exact ⟨htouch, by decide +kernel, by decide +kernel⟩

end MemPort
