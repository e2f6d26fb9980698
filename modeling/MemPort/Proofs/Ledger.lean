import MemPort.Proofs.Accesses
import MemPort.Proofs.Bookkeeping

/-!
# An allocator and its memory

Here the allocator works with a memory with a latency, and the world outside may
only submit transactions and let cycles of either pass, in any order.  Of the
whole system, an account of what the transactions get needs four things: the
books of the allocator, the answers on their way, the memory and what has been
handed out.  They make up its `Ledger`, and every piece of a run changes them in
one of four ways.

## Main definitions

* `System`, `Act`, `play` — the system, what may be done with it, and what
  some acts do.
* `Ledger`, `Ledger.Step` — what an account needs, and how it changes.

## Main results

* `linked_play` — the record of what some acts do is linked.
* `step_of_genuine` — every piece is a step of the ledger.

## References

`SPEC_FULL.md`, section 4.4, step 5: when a transaction leaves its port, and
which request serves it.
-/

namespace MemPort

/-- An allocator between requestors and a memory with a latency. -/
abbrev System (ρ : Type) := Assembly (Recorded (ρ × DelayedMemory))

/-- What the world outside may do with a system. -/
inductive Act where
  /-- A requestor submits a transaction. -/
  | submit (now port : Nat) (txn : Transaction)
  /-- A cycle of the allocator passes. -/
  | tick (now : Nat)
  /-- A cycle of the memory passes. -/
  | memoryTick (now : Nat)

namespace Assembly

variable {ρ : Type}

/-- The memory of a system. -/
def memory (m : System ρ) : DelayedMemory := m.surroundings.inner.2

/-- The answers on their way, oldest first: those that wait in the allocator,
and those that the memory holds back. -/
def pending (m : System ρ) : List BackendResponse := m.allocator.answers ++ m.memory.heldBack

theorem pending_congr {m m' : System ρ} (hanswers : m'.allocator.answers = m.allocator.answers)
    (hheld : m'.memory.heldBack = m.memory.heldBack) : m'.pending = m.pending := by
  unfold pending
  rw [hanswers, hheld]

/-- The memory's part of a cycle. -/
def memoryTick (now : Nat) (m : System ρ) : System ρ :=
  let ticked := m.memory.tick now m.allocator
  let surroundings : Recorded (ρ × DelayedMemory) :=
    ⟨(m.surroundings.inner.1, ticked.value.1), m.surroundings.contacts⟩
  ({ m with allocator := ticked.value.2, surroundings } : System ρ).noteAll ticked.notices

end Assembly

section Play

variable {ρ : Type} [Requestors ρ]

/-- The pieces of an act. -/
def Act.moments (c : Act) (m : System ρ) : List (Moment (ρ × DelayedMemory)) :=
  match c with
  | submit now port txn => (Call.submit now port txn).moments m
  | tick now => m.tickMoments now
  | memoryTick now => [⟨m, .elapsed, m.memoryTick now⟩]

/-- What some acts do, one after the other. -/
def play (acts : List Act) (m : System ρ) : List (Moment (ρ × DelayedMemory)) :=
  runBy Act.moments acts m

/-- The record of what an act does is linked. -/
theorem Act.linked_moments (c : Act) (m : System ρ) : Linked m (c.moments m) := by
  cases c with
  | submit now port txn => exact Call.linked_moments (.submit now port txn) m
  | tick now => exact m.linked_tickMoments now
  | memoryTick now =>
    exact .single (.elapsed m _ _ _ (DelayedMemory.of_tick now m.memory m.allocator).2.1)

/-- **The record of what some acts do is linked.** -/
theorem linked_play (acts : List Act) (m : System ρ) : Linked m (play acts m) :=
  linked_runBy Act.linked_moments acts m

/-- A piece that the system may show: the memory calls the allocator in its own
part of a cycle only, and nothing is performed at once. -/
def Moment.Closed (x : Moment (ρ × DelayedMemory)) : Prop :=
  match x.event with
  | .received .. | .resumed | .performed .. => False
  | .elapsed => ∃ now, x.after = x.before.memoryTick now
  | _ => True

/-- Every piece of an act is closed, and accepts only what was submitted. -/
theorem Act.closed_moments {c : Act} {m : System ρ} {x : Moment (ρ × DelayedMemory)}
    (h : x ∈ c.moments m) : x.Closed ∧
      ∀ o ∈ x.event.accepted, ∃ now, Act.submit now o.port o.txn = c := by
  cases c with
  | submit now port txn =>
    rw [List.mem_singleton.mp h]
    refine ⟨trivial, fun o ho => ⟨now, ?_⟩⟩
    rw [Event.eq_of_mem_accepted ho]
  | tick now =>
    have hkind := Assembly.ofTick_tickMoments h
    unfold Moment.Closed
    generalize x.event = e at hkind
    cases hkind <;> exact ⟨trivial, nofun⟩
  | memoryTick now =>
    rw [List.mem_singleton.mp h]
    exact ⟨⟨now, rfl⟩, nofun⟩

/-- Every piece of a play is closed, and accepts only what was submitted. -/
theorem closed_play {acts : List Act} {m : System ρ} {x : Moment (ρ × DelayedMemory)}
    (h : x ∈ play acts m) : x.Closed ∧
      ∀ o ∈ x.event.accepted, ∃ now, Act.submit now o.port o.txn ∈ acts := by
  obtain ⟨c, hc, m', hx⟩ := mem_runBy h
  obtain ⟨hclosed, haccepted⟩ := Act.closed_moments hx
  refine ⟨hclosed, fun o ho => ?_⟩
  obtain ⟨now, rfl⟩ := haccepted o ho
  exact ⟨now, hc⟩

end Play

/-! ### The ledger -/

/-- What an account of a system needs. -/
structure Ledger where
  /-- Where the transactions are. -/
  books : Books
  /-- The answers on their way, oldest first. -/
  pending : List BackendResponse
  /-- The memory. -/
  memory : DelayedMemory
  /-- What has been handed out. -/
  deliveries : List (Nat × Response)

/-- The ledger of a system. -/
def Assembly.ledger {ρ : Type} (m : System ρ) : Ledger :=
  ⟨m.allocator.books, m.pending, m.memory, m.surroundings.deliveries⟩

/-- How the ledger changes besides its books. -/
inductive Ledger.Step (l l' : Ledger) : Event → Prop
  /-- Nothing is sent, folded or drained. -/
  | quiet {e : Event} (hserved : e.served = []) (hdrained : e.drained = [])
      (hpending : l'.pending = l.pending) (hmemory : l.memory.Agrees l'.memory)
      (hdeliveries : l'.deliveries = l.deliveries) : Step l l' e
  /-- A request goes out and is performed, and its answer is the last on its way. -/
  | sent {now granted : Nat} {sent : BackendRequest} {request : Coalesced}
      (halone : request.cmd ≠ .read → request.folded = [])
      (hperform : ∀ answer d, l.memory.perform sent = .ok (answer, d) →
        l'.pending = l.pending ++ [answer] ∧ d.Agrees l'.memory)
      (hdeliveries : l'.deliveries = l.deliveries) :
      Step l l' (.turned now (.ok (.sent granted sent request)))
  /-- A load joins one in flight that no store of the line is behind. -/
  | folded {now granted id : Nat} {request : Coalesced} (hread : request.cmd = .read)
      (hlast : ∀ k store, l.books.outstanding.get? k = some store →
        store.Blocks request → k < id)
      (hpending : l'.pending = l.pending) (hmemory : l.memory.Agrees l'.memory)
      (hdeliveries : l'.deliveries = l.deliveries) :
      Step l l' (.turned now (.ok (.folded granted id request)))
  /-- The oldest answer is drained, and completes the transactions behind its
  request. -/
  | answered {now : Nat} {response : BackendResponse} {result : Except Failure Unit}
      (hpending : l.pending = response :: l'.pending) (hmemory : l.memory.Agrees l'.memory)
      (hdeliveries : ∀ request ds, l.books.outstanding.get? response.id = some request →
        request.fanOut response = .ok ds → l'.deliveries = l.deliveries ++ ds) :
      Step l l' (.answered now response result)

section Genuine

variable {ρ : Type} [Requestors ρ]

omit [Requestors ρ] in
theorem accept_pair {now : Nat} {request : BackendRequest} {s t : ρ × DelayedMemory}
    {accepted : Bool} {notices : List Notice}
    (h : Backend.accept now request s = .ok ⟨(accepted, t), notices⟩) :
    s.2.accept now request = .ok ⟨(accepted, t.2), notices⟩ := by
  have hdef : Backend.accept now request s =
      (s.2.accept now request).map fun l => l.map fun r => (r.1, (s.1, r.2)) := rfl
  rw [hdef] at h
  obtain ⟨l, haccept, heq⟩ := exists_of_map_eq_ok h
  cases heq
  exact haccept

theorem Notified.memory_eq {s t : Recorded (ρ × DelayedMemory)} (h : Notified s t) :
    t.inner.2 = s.inner.2 :=
  h.eq_of (fun s => s.inner.2) (fun _ _ => rfl) fun _ _ _ => rfl

namespace Assembly

theorem memory_answer (m : System ρ) (now : Nat) (response : BackendResponse) :
    (m.answer now response).left.memory = m.memory :=
  eq_of_answer (fun s => s.inner.2) (fun _ _ _ => rfl) m now response

end Assembly

/-- A piece that sends, folds and drains nothing leaves the ledger as it is, if
it leaves the memory as it is. -/
theorem step_of_quiet {m m' : System ρ} {e : Event} (h : Effect m m' e) (helapsed : e ≠ .elapsed)
    (hserved : e.served = []) (htaken : e.taken = []) (hdrained : e.drained = [])
    (hmemory : m.memory.Agrees m'.memory) (hheld : m'.memory.heldBack = m.memory.heldBack) :
    m.ledger.Step m'.ledger e := by
  have hanswers := h.answers_eq fun heq => absurd heq helapsed
  rw [htaken, hdrained, List.append_nil, List.nil_append] at hanswers
  exact .quiet hserved hdrained (Assembly.pending_congr hanswers.symm hheld) hmemory
    (h.deliveries_eq hdrained)

omit [Requestors ρ] in
/-- Where nobody is called, the memory stays as it is. -/
theorem memory_of_surroundings {m m' : System ρ} (h : m'.surroundings = m.surroundings) :
    m.memory.Agrees m'.memory ∧ m'.memory.heldBack = m.memory.heldBack := by
  unfold Assembly.memory
  rw [h]
  exact ⟨.refl _, rfl⟩

theorem step_of_refused {m m₁ m' : System ρ} {now granted : Nat} {sent : BackendRequest}
    {request : Coalesced}
    (heffect : Effect m m' (.turned now (.ok (.refused granted sent))))
    (hmemory : m₁.memory = m.memory) (h : Assembly.Refuses m₁ m' now sent request) :
    m.ledger.Step m'.ledger (.turned now (.ok (.refused granted sent))) := by
  obtain ⟨notices, haccept⟩ := h.refused
  obtain ⟨hagrees, hheld⟩ :=
    DelayedMemory.accept_refused (accept_pair (accept_recorded haccept).2)
  have hagrees : m₁.memory.Agrees m'.memory := hagrees
  have hheld : m'.memory.heldBack = m₁.memory.heldBack := hheld
  rw [hmemory] at hagrees hheld
  exact step_of_quiet heffect nofun rfl rfl rfl hagrees hheld

/-- A request that goes out is performed, and its answer is the last on its way. -/
theorem step_of_sent {m m₁ m' : System ρ} {now granted : Nat} {sent : BackendRequest}
    {request : Coalesced}
    (heffect : Effect m m' (.turned now (.ok (.sent granted sent request))))
    (hmemory : m₁.memory = m.memory) (halone : request.cmd ≠ .read → request.folded = [])
    (h : Assembly.Sends m₁ m' now granted sent request) :
    m.ledger.Step m'.ledger (.turned now (.ok (.sent granted sent request))) := by
  refine .sent halone (fun answer d hperform => ?_) (heffect.deliveries_eq rfl)
  obtain ⟨s, notices, haccept, hnotified⟩ := h.accepted
  have hperform₁ : m₁.memory.perform sent = .ok (answer, d) := by
    rw [hmemory]
    exact hperform
  obtain ⟨hagrees, hheld⟩ :=
    DelayedMemory.accept_accepted (accept_pair (accept_recorded haccept).2) hperform₁
  -- requestors that are told to try again, or snooped, do not touch the memory
  have htold : m'.memory = s.inner.2 := hnotified.memory_eq
  have hheld' : m'.memory.heldBack = m.memory.heldBack ++ [answer] := by
    rw [htold, hheld, ← hmemory]
    rfl
  have hkept : m'.allocator.answers = m.allocator.answers :=
    (heffect.answers_eq nofun).symm.trans (List.append_nil _)
  unfold Assembly.ledger Assembly.pending
  simp only
  refine ⟨?_, ?_⟩
  · rw [hheld', hkept, List.append_assoc]
  · rw [htold]
    exact hagrees

theorem step_of_turned {m m' : System ρ} {now : Nat} {result : Except Failure Turn}
    (heffect : Effect m m' (.turned now result)) (h : Assembly.Turned m now result m')
    (hok : ∀ a, result ≠ .error (.assertion a)) :
    m.ledger.Step m'.ledger (.turned now result) := by
  cases h with
  | idle _ => exact step_of_quiet heffect nofun rfl rfl rfl (.refl _) rfl
  | parked _ _ _ _ hs =>
    obtain ⟨hagrees, hheld⟩ := memory_of_surroundings hs
    exact step_of_quiet heffect nofun rfl rfl rfl hagrees hheld
  | spilled hcleared _ _ _ =>
    obtain ⟨hagrees, hheld⟩ := memory_of_surroundings hcleared.surroundings
    exact step_of_quiet heffect nofun rfl rfl rfl hagrees hheld
  | @served m₁ _ granted head request _ hcleared hformed hserved =>
    obtain ⟨c, table, ports, stats, -, -, -, ha⟩ := hcleared.allocator
    have hmemory : m₁.memory = m.memory := congrArg (fun s => s.inner.2) hcleared.surroundings
    cases hserved with
    | broken a => exact absurd rfl (hok a)
    | duplicate _ h _ =>
      rw [h] at heffect ⊢
      have hagrees : m.memory.Agrees m₁.memory := by
        rw [hmemory]
        exact .refl _
      exact step_of_quiet heffect nofun rfl rfl rfl hagrees (by rw [hmemory])
    | refused h => exact step_of_refused heffect hmemory h
    | sent h _ =>
      refine step_of_sent heffect hmemory (fun hcmd => ?_) h
      rw [hformed.cmd_eq] at hcmd
      exact hformed.folded_eq_nil hcmd
    | folded h hread =>
      have htold : m'.memory = m.memory := h.surroundings.memory_eq.trans hmemory
      have hkept : m'.allocator.answers = m.allocator.answers :=
        (heffect.answers_eq nofun).symm.trans (List.append_nil _)
      obtain ⟨-, hlast, -⟩ := Allocator.foldTarget?_eq_some hread h.target
      rw [ha] at hlast
      have hagrees : m.memory.Agrees m'.memory := by
        rw [htold]
        exact .refl _
      exact .folded hread hlast (Assembly.pending_congr hkept (by rw [htold])) hagrees
        (heffect.deliveries_eq rfl)

/-- The oldest answer that waits is drained, and completes what is behind its
request. -/
theorem step_of_answered {m m' : System ρ} {now : Nat} {response : BackendResponse}
    {result : Except Failure Unit} (h : Effect m m' (.answered now response result))
    (hmemory : m'.memory = m.memory)
    (hwilling : ∀ port addr, result ≠ .error (.invariant (.deliveryRefused port addr))) :
    m.ledger.Step m'.ledger (.answered now response result) := by
  cases h with
  | answered hdrain ha hhanded hok =>
    have hanswers := Allocator.answers_drain? hdrain
    obtain ⟨stats, lastActive, ha⟩ := ha
    refine .answered ?_ ?_ fun request ds hrequest hds => ?_
    · unfold Assembly.ledger Assembly.pending
      simp only
      rw [hanswers, hmemory, ha]
      rfl
    · unfold Assembly.ledger
      rw [hmemory]
      exact .refl _
    · have hrequest : m.allocator.outstanding.get? response.id = some request := hrequest
      cases hhanded with
      | all hrequest' hds' hdeliveries =>
        rw [hrequest'] at hrequest
        cases hrequest
        rw [hds'] at hds
        cases hds
        exact hdeliveries
      | nothing hnone _ =>
        rw [hnone] at hrequest
        cases hrequest
      | short hrequest' hds' _ =>
        rw [hrequest'] at hrequest
        cases hrequest
        rw [hds'] at hds
        cases hds
      | refused => exact absurd rfl (hwilling _ _)
      | broken => exact absurd rfl (hok _)

/-- **Every piece is a step of the ledger**, as long as the requestors take what
they are handed. -/
theorem step_of_genuine {x : Moment (ρ × DelayedMemory)} (hx : x.Genuine)
    (hok : x.event.isBroken = false) (hclosed : x.Closed)
    (hwilling : ∀ port addr,
      x.event.failure? ≠ some (.invariant (.deliveryRefused port addr))) :
    x.before.ledger.Step x.after.ledger x.event := by
  have heffect := effect_of_genuine hx hok
  -- what drains an answer hands it out, and that leaves the memory alone
  have hanswered : x.event.drained ≠ [] → x.after.memory = x.before.memory := by
    intro hdrained
    cases hx with
    | answered m now response port _ => exact Assembly.memory_answer _ now response
    | _ => exact absurd rfl hdrained
  obtain ⟨m, e, m'⟩ := x
  simp only at heffect hok hclosed hwilling hanswered ⊢
  cases heffect with
  | received _ _ => exact hclosed.elim
  | resumed _ _ => exact hclosed.elim
  | performed _ _ => exact hclosed.elim
  | rejected _ => exact hclosed.elim
  | submitted ha hq hs =>
    obtain ⟨hagrees, hheld⟩ := memory_of_surroundings hs
    exact step_of_quiet (.submitted ha hq hs) nofun rfl rfl rfl hagrees hheld
  | swept ha hq hs =>
    obtain ⟨hagrees, hheld⟩ := memory_of_surroundings hs
    exact step_of_quiet (.swept ha hq hs) nofun rfl rfl rfl hagrees hheld
  | checked ha hs =>
    obtain ⟨hagrees, hheld⟩ := memory_of_surroundings hs
    exact step_of_quiet (.checked ha hs) nofun rfl rfl rfl hagrees hheld
  | @settled now ha hs =>
    have heffect : Effect m m' (.settled now) := .settled ha hs
    rcases hs with hs | hs
    · obtain ⟨hagrees, hheld⟩ := memory_of_surroundings hs
      exact step_of_quiet heffect nofun rfl rfl rfl hagrees hheld
    · have hunblocked : m'.memory = m.memory.unblock := congrArg (fun s => s.inner.2) hs
      refine step_of_quiet heffect nofun rfl rfl rfl ?_ ?_
      · rw [hunblocked]
        exact ⟨rfl, rfl, rfl⟩
      · rw [hunblocked]
        rfl
  | elapsed ha hs =>
    obtain ⟨now, hticked⟩ : ∃ now, m' = m.memoryTick now := hclosed
    obtain ⟨hagrees, -, hanswers⟩ := DelayedMemory.of_tick now m.memory m.allocator
    have hdeliveries : m'.ledger.deliveries = m.ledger.deliveries := Recorded.deliveries_congr hs
    refine .quiet rfl rfl ?_ ?_ hdeliveries
    · rw [hticked]
      exact hanswers
    · rw [hticked]
      exact hagrees
  | turned hbusy hokr h => exact step_of_turned (.turned hbusy hokr h) h hokr
  | answered hdrain ha hhanded hokr =>
    refine step_of_answered (.answered hdrain ha hhanded hokr) (hanswered nofun) ?_
    rintro port addr rfl
    exact hwilling port addr rfl

end Genuine

end MemPort
