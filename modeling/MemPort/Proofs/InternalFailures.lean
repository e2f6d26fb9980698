import MemPort.Proofs.Redundancy

/-!
# Failures that are none

Several steps of the allocator look at something that cannot be otherwise: that
the number of the next request is free, that a load-locked which was let through
gets its lock, that the ports behind a request have heads to give, that a load
which was chosen takes in what joins it, and that only loads share an access.
Where such a look fails, a request may already have gone out, so none of them
may ever fail.

They rest on different things.  The number of the next request is above all
numbers in flight, which every piece of a run preserves.  All else is settled
within one turn: the lock is acquired in the cycle of its check, and the heads
that a request was formed of are those of different ports, and stay where they
are until they are retired.

## Main definitions

* `Failure.isInternal` — failures that only a broken allocator has.
* `Assembly.forming?` — the request that a turn forms before it folds or
  offers it.
* `Assembly.Yields` — ports that all give up a head when they are retired one
  after the other.
* `Assembly.Dispatches` — what is taken for granted when a request is folded
  or offered.

## Main results

* `issueTurn_of_forming` — a turn folds or offers the request that it forms.
* `dispatches_of_forming` — what is taken for granted of a request that was
  formed holds of it.
* `Moment.Genuine.not_internal` — no piece of a run has such a failure while
  numbers in use are below the next.
* `internal_failures_unreachable` — none of them happens in any run.

## References

`SPEC_FULL.md`, sections 7 and 10.2: the failures that mean that the allocator
itself is broken.
-/

namespace MemPort

/-- Whether only a broken allocator fails in this way. -/
def Failure.isInternal : Failure → Bool
  | invariant (.duplicateRequestId _) | invariant (.lockOwnerMismatch ..) => true
  | _ => false

/-- A transaction that does not fit its line is oversized, and nothing else. -/
theorem oversized_of_checkLineFit {port lineSize : Nat} {txn : Transaction} {v : InvariantViolation}
    (h : checkLineFit port txn lineSize = .error v) :
    ∃ reach, v = .oversizedAccess port txn.addr reach lineSize := by
  unfold checkLineFit at h
  simp only at h
  split at h
  · cases h
    exact ⟨_, rfl⟩
  · cases h

namespace Assembly

variable {σ : Type}

/-! ### The request that a turn forms -/

/-- The request that a turn forms, with the port that it grants and the assembly
that it has come to by then; nothing if no port has a visible head, the granted
one is parked or a head spills past its line. -/
def forming? (m : Assembly σ) (now : Nat) : Option (Nat × Coalesced × Assembly σ) :=
  let ready := m.allocator.readyMask now
  match m.allocator.arbiter.choose ready with
  | none => none
  | some granted =>
      match m.allocator.headAt? now granted with
      | none => none
      | some head =>
          match (m.note (.granted ready granted head.cmd head.addr)).checkLock now granted head with
          | (.blocked _, _) => none
          | (_, m) =>
              let config := m.allocator.config
              match checkLineFit granted head config.lineSize with
              | .error _ => none
              | .ok () =>
                  let request := Coalesced.ofTransaction granted head config.lineSize
                  if config.enableCoalescing && head.cmd.isCoalescable then
                    match m.allocator.gather now granted (Allocator.readyPorts ready) request with
                    | .error _ => none
                    | .ok request =>
                        let folded := request.folded.length
                        some (granted, request,
                          if 0 < folded then m.note (.foldedInSpace folded request.line) else m)
                  else some (granted, request, m)

/-- **How a turn forms a request**: for the visible head of the port that it
grants, which no lock holds back and which fits its line; and where that is
wanted, a load is joined by what is gathered for it. -/
theorem of_forming {m m₁ : Assembly σ} {now granted : Nat} {request : Coalesced}
    (h : m.forming? now = some (granted, request, m₁)) :
    ∃ head c m₀, m.allocator.arbiter.choose (m.allocator.readyMask now) = some granted ∧
      m.allocator.headAt? now granted = some head ∧
      (m.note (.granted (m.allocator.readyMask now) granted head.cmd head.addr)).checkLock
          now granted head = (c, m₀) ∧
      c.isBlocked = false ∧
      checkLineFit granted head m₀.allocator.config.lineSize = .ok () ∧
      if m₀.allocator.config.enableCoalescing && head.cmd.isCoalescable then
        m₀.allocator.gather now granted (Allocator.readyPorts (m.allocator.readyMask now))
            (.ofTransaction granted head m₀.allocator.config.lineSize) = .ok request ∧
          m₁ = if 0 < request.folded.length then
            m₀.note (.foldedInSpace request.folded.length request.line) else m₀
      else
        request = .ofTransaction granted head m₀.allocator.config.lineSize ∧ m₁ = m₀ := by
  unfold forming? at h
  simp only at h
  split at h
  · cases h
  -- in their order: the grant, the head, the lock, the line, the gathering
  rename_i port hchoose
  split at h
  · cases h
  rename_i head hhead
  split at h
  · cases h
  rename_i c m₀ hopen hcheck
  have hc := LockCheck.isBlocked_eq_false hopen
  split at h
  · cases h
  rename_i hfit
  split at h
  · rename_i hon
    split at h
    · cases h
    · rename_i gathered hgather
      cases h
      refine ⟨head, c, m₀, hchoose, hhead, hcheck, hc, hfit, ?_⟩
      rw [if_pos hon]
      exact ⟨hgather, rfl⟩
  · rename_i hoff
    cases h
    refine ⟨head, c, m₁, hchoose, hhead, hcheck, hc, hfit, ?_⟩
    rw [if_neg hoff]
    exact ⟨rfl, rfl⟩

theorem allocator_note_if {m : Assembly σ} {p : Prop} [Decidable p] (n : Notice) :
    (if p then m.note n else m).allocator = m.allocator := by
  split <;> rfl

/-- **What a turn forms a request of** are visible heads, also after the check
of the lock. -/
theorem formed_of_forming {m m₁ : Assembly σ} {now granted : Nat} {request : Coalesced}
    (h : m.forming? now = some (granted, request, m₁)) :
    ∃ head, request.FormedFrom m₁.allocator now granted head := by
  obtain ⟨head, c, m₀, hchoose, hhead, hcheck, hc, hfit, hrequest⟩ := of_forming h
  have hgrant := Allocator.grant?_eq_some_iff.mpr ⟨hchoose, hhead⟩
  have hcleared := cleared_checkLock hgrant (allocator_note m _) (surroundings_note m _) hcheck hc
  have hone := Allocator.formedFrom_ofTransaction (hcleared.headAt? _ _ hhead) hfit
  refine ⟨head, ?_⟩
  split at hrequest
  · rename_i hon
    rw [Bool.and_eq_true] at hon
    obtain ⟨hgather, rfl⟩ := hrequest
    rw [allocator_note_if]
    -- the walk starts from the head alone, so it meets no port twice
    refine Allocator.formedFrom_gather hon.1 (Allocator.nodup_readyPorts _) ?_ hone hgather
    intro port _ hmem
    rw [Allocator.ports_ofTransaction] at hmem
    exact List.mem_singleton.mp hmem
  · obtain ⟨rfl, rfl⟩ := hrequest
    exact hone

section Sending

variable [Requestors σ] [Backend σ]

/-- Fold a request into one in flight where that is wanted, and else offer it. -/
def dispatch (m : Assembly σ) (now granted : Nat) (request : Coalesced) : Outcome σ Turn :=
  if m.allocator.config.enableCoalescing && request.cmd.isCoalescable then
    m.foldOrOffer now granted request
  else m.offer now granted request

/-- A turn serves the head that it grants, unless a lock holds it back. -/
theorem issueTurn_eq_serve {m m₀ : Assembly σ} {now granted : Nat} {head : Transaction}
    {c : LockCheck}
    (hchoose : m.allocator.arbiter.choose (m.allocator.readyMask now) = some granted)
    (hhead : m.allocator.headAt? now granted = some head)
    (hcheck :
      (m.note (.granted (m.allocator.readyMask now) granted head.cmd head.addr)).checkLock now
      granted head = (c, m₀))
    (hc : c.isBlocked = false) :
    m.issueTurn now = m₀.serve now granted (m.allocator.readyMask now) head := by
  unfold issueTurn
  simp only [hchoose, hhead, hcheck]
  cases c with
  | blocked owner => cases hc
  | free => rfl
  | released => rfl

/-- **A turn folds or offers the request that it forms.** -/
theorem issueTurn_of_forming {m m₁ : Assembly σ} {now granted : Nat} {request : Coalesced}
    (h : m.forming? now = some (granted, request, m₁)) :
    m.issueTurn now = m₁.dispatch now granted request := by
  obtain ⟨head, c, m₀, hchoose, hhead, hcheck, hc, hfit, hrequest⟩ := of_forming h
  rw [issueTurn_eq_serve hchoose hhead hcheck hc]
  unfold serve dispatch
  simp only [hfit]
  split at hrequest
  · rename_i hon
    obtain ⟨hgather, rfl⟩ := hrequest
    -- gathering keeps the first origin, and with it the command of the head
    have hcmd : request.cmd = head.cmd := by
      unfold Coalesced.cmd
      rw [first_gather hgather]
      rfl
    rw [if_pos hon, allocator_note_if, hcmd, if_pos hon]
    simp only [hgather]
  · rename_i hoff
    obtain ⟨rfl, rfl⟩ := hrequest
    have hcmd : (Coalesced.ofTransaction granted head m₁.allocator.config.lineSize).cmd =
        head.cmd := rfl
    rw [if_neg hoff, hcmd, if_neg hoff]

/-- A turn that forms no request ends before it folds or offers one. -/
theorem issueTurn_of_not_forming {m : Assembly σ} {now : Nat} (h : m.forming? now = none) :
    (m.issueTurn now).result = .ok .idle ∨
    (∃ port, (m.issueTurn now).result = .ok (.parked port)) ∨
      ∃ port addr reach lineSize,
        (m.issueTurn now).result =
          .error (.invariant (.oversizedAccess port addr reach lineSize)) := by
  unfold forming? at h
  simp only at h
  -- the turn is opened up in each case, for it is split just as the request is
  split at h
  · rename_i hchoose
    left
    unfold issueTurn
    simp only [hchoose]
    rfl
  rename_i port hchoose
  split at h
  · rename_i hhead
    left
    unfold issueTurn
    simp only [hchoose, hhead]
    rfl
  rename_i head hhead
  split at h
  · rename_i owner m₀ hcheck
    right
    left
    refine ⟨port, ?_⟩
    unfold issueTurn
    simp only [hchoose, hhead, hcheck]
    rfl
  rename_i c m₀ hopen hcheck
  -- past the check of the lock, only a head that spills past its line is left
  right
  right
  rw [issueTurn_eq_serve hchoose hhead hcheck (LockCheck.isBlocked_eq_false hopen)]
  split at h
  · rename_i v hv
    obtain ⟨reach, rfl⟩ := oversized_of_checkLineFit hv
    refine ⟨port, head.addr, reach, m₀.allocator.config.lineSize, ?_⟩
    unfold serve
    simp only [hv]
    rfl
  rename_i hfit
  split at h
  · rename_i hon
    split at h
    · rename_i v hv
      obtain ⟨q, txn, -, hspill⟩ := Allocator.spilled_gather hv
      obtain ⟨reach, rfl⟩ := oversized_of_checkLineFit hspill
      refine ⟨q, txn.addr, reach, m₀.allocator.config.lineSize, ?_⟩
      unfold serve
      simp only [hfit, if_pos hon, hv]
      rfl
    · cases h
  · cases h

/-! ### Heads that are retired -/

omit [Backend σ] in
/-- Ports that all give up a head when they are retired one after the other. -/
def Yields (now : Nat) : Assembly σ → List Nat → Prop
  | _, [] => True
  | m, port :: rest =>
      (m.allocator.ports[port]?.bind (·.pop? now)).isSome = true ∧
        Yields now (m.retireHead now port) rest

omit [Backend σ] in
/-- Visible heads of different ports are all given up. -/
theorem yields_of_visible {m : Assembly σ} {now : Nat} {os : List Origin}
    (hvisible : ∀ o ∈ os, m.allocator.headAt? now o.port = some o.txn)
    (hnodup : (os.map (·.port)).Nodup) : m.Yields now (os.map (·.port)) := by
  induction os generalizing m with
  | nil => exact trivial
  | cons o rest ih =>
    rw [List.map_cons, List.nodup_cons] at hnodup
    obtain ⟨hfresh, hnodup⟩ := hnodup
    constructor
    · have hhead := hvisible o List.mem_cons_self
      obtain ⟨p, hp, hhead⟩ := Option.bind_eq_some_iff.mp hhead
      obtain ⟨e, p', hpop, -⟩ := RequestorPort.pop?_of_head? hhead
      rw [hp, Option.bind_some, hpop]
      rfl
    · -- retiring one port leaves the heads of the others
      refine ih (fun x hx => ?_) hnodup
      have hne : o.port ≠ x.port := fun heq => hfresh (heq ▸ List.mem_map.mpr ⟨x, hx, rfl⟩)
      rw [headAt?_retireHead_of_ne hne]
      exact hvisible x (List.mem_cons_of_mem _ hx)

omit [Backend σ] in
/-- **The ports behind a request that was formed yield their heads**, whatever
happens to all but the ports until they are retired. -/
theorem yields_of_formed {m m₁ m₂ : Assembly σ} {now granted : Nat} {request : Coalesced}
    (h : m.forming? now = some (granted, request, m₁))
    (hports : m₂.allocator.ports = m₁.allocator.ports) :
    m₂.Yields now request.ports := by
  obtain ⟨head, hformed⟩ := formed_of_forming h
  refine yields_of_visible (fun o ho => ?_) hformed.nodup
  rw [headAt?_congr hports]
  exact hformed.visible o ho

omit [Backend σ] in
/-- After a request went out its ports are retired as they were before that. -/
theorem retires_commit {m m' : Assembly σ} {now granted : Nat} {request : Coalesced}
    {sent : BackendRequest} {turn : Turn} (h : m.commit now granted request sent = .ok turn m') :
    ∃ m₂ : Assembly σ, m₂.allocator.ports = m.allocator.ports ∧
      m'.allocator.ports = (m₂.retireHeads now request.ports).allocator.ports := by
  obtain ⟨-, m₁, m₂, hlock, hsnooped, rfl⟩ := commit_eq_ok h
  refine ⟨(m₂.update fun a =>
    { a with outstanding := a.outstanding.insert sent.id request }).count .recordSend, ?_, rfl⟩
  have hports := (ports_broadcast? hsnooped).trans (ports_lockAddress hlock)
  exact hports

/-- **A turn that retires heads** retires the ports behind the request that it
formed, as they were then. -/
theorem retires_dispatch {m m' : Assembly σ} {now granted : Nat} {request retired : Coalesced}
    {turn : Turn}
    (h : m.dispatch now granted request = .ok turn m') (hturn : turn.request? = some retired) :
    retired = request ∧ ∃ m₂ : Assembly σ, m₂.allocator.ports = m.allocator.ports ∧
      m'.allocator.ports = (m₂.retireHeads now request.ports).allocator.ports := by
  -- a fold and an offer retire alike, so the offer is stated for itself
  have hoffer : ∀ {m' : Assembly σ}, m.offer now granted request = .ok turn m' →
      retired = request ∧ ∃ m₂ : Assembly σ, m₂.allocator.ports = m.allocator.ports ∧
        m'.allocator.ports = (m₂.retireHeads now request.ports).allocator.ports := by
    intro m' h
    refine ⟨(request_offer h hturn).1, ?_⟩
    obtain ⟨sent, answer, m₁, -, -, rfl, ⟨-, hcommit⟩ | ⟨-, rfl, -⟩⟩ := offer_eq_ok h
    · obtain ⟨m₂, hports, hretired⟩ := retires_commit hcommit
      exact ⟨m₂, hports, hretired⟩
    · cases hturn
  unfold dispatch at h
  split at h
  · rcases foldOrOffer_eq_ok h with ⟨id, folded, a, hfold, rfl, rfl⟩ | h
    · cases hturn
      refine ⟨rfl,
        ((({ m with allocator := a } : Assembly σ).note (.foldedInTime folded id)).count
        (.recordSpaceCoalesced request.folded.length)).count
          (.recordTimeCoalesced folded), ?_, rfl⟩
      have hports := ports_foldInTime? hfold
      exact hports
    · exact hoffer h
  · exact hoffer h

end Sending

end Assembly

/-! ### Failures of the pieces of a run -/

section Runs

variable {σ : Type} [Requestors σ] [Backend σ]

/-- An access at once breaks a contract or spills past its line, if it fails. -/
theorem Assembly.not_internal_accessFunctional {m : Assembly σ} {now port : Nat}
    {txn : Transaction}
    {e : Failure} (h : failureOf (m.accessFunctional now port txn).result = some e) :
    e.isInternal = false := by
  unfold accessFunctional at h
  split at h
  · cases h
    rfl
  · split at h
    · rename_i v hv
      -- the access is too long for its line, which is not an internal matter
      obtain ⟨reach, rfl⟩ := oversized_of_checkLineFit hv
      cases h
      rfl
    · simp only at h
      split at h
      · rename_i e' m₁ hsnoop
        obtain ⟨a, rfl, -⟩ := broken_broadcast? hsnoop
        cases h
        rfl
      · split at h
        · cases h
          rfl
        · cases h

/-- A turn fails in this way only over a number that is in use. -/
theorem Assembly.Turned.not_internal {m m' : Assembly σ} {now : Nat} {e : Failure}
    (h : Turned m now (.error e) m') (hnumbered : m.allocator.books.Numbered) :
    e.isInternal = false := by
  cases h with
  | spilled _ _ hspill _ =>
    obtain ⟨reach, rfl⟩ := oversized_of_checkLineFit hspill
    rfl
  | served hcleared _ hserved =>
    cases hserved with
    | broken a _ _ => rfl
    | duplicate _ _ hused =>
      -- the number is above all that are in use
      rw [hcleared.outstanding_eq, hcleared.nextId_eq] at hused
      exact absurd hused (Bool.eq_false_iff.mp hnumbered.contains_eq)

/-- **No piece of a run has such a failure** while the numbers in use are below
the next. -/
theorem Moment.Genuine.not_internal {x : Moment σ} (hx : x.Genuine)
    (hnumbered : x.before.allocator.books.Numbered) {e : Failure} (h : x.event.failure? = some e) :
    e.isInternal = false := by
  cases hx with
  | submitted m now port txn =>
    unfold Assembly.submit at h
    simp only at h
    split at h
    · cases h
      rfl
    · cases h
  | performed m now port txn => exact Assembly.not_internal_accessFunctional h
  | interrupted m now a =>
    cases h
    rfl
  | answered m now response port hdrain =>
    have hhanded := handed_answer (m.update fun a => { a with backendPort := port }) now response
    simp only [Event.failure?] at h
    -- none of the ways to hand out an answer is an internal failure
    generalize
      ((m.update fun a => { a with backendPort := port }).answer now response).result = result
      at h hhanded
    cases hhanded <;> cases h <;> rfl
  | turned m now hbusy =>
    have hturned : m.Turned now (m.issueTurn now).result (m.issueTurn now).left :=
      Assembly.turned_issueTurn hbusy
    generalize (m.issueTurn now).result = result at h hturned
    cases result with
    | ok turn => cases h
    | error e' =>
      cases h
      exact hturned.not_internal hnumbered
  | checked m now =>
    unfold Assembly.checkMoment Assembly.checkProgress at h
    simp only at h
    split at h
    · cases h
    · split at h <;> cases h
      rfl
  | received => cases h
  | resumed => cases h
  | elapsed => cases h
  | settled => cases h
  | swept => cases h

/-- The numbers in use stay below the next one. -/
theorem Linked.numbered {m : Assembly (Recorded σ)} {ms : List (Moment σ)} (h : Linked m ms)
    (hok : Unbroken ms) (hstart : m.allocator.books.Numbered) :
    (endOf m ms).allocator.books.Numbered :=
  Linked.induct (P := fun _ m' => m'.allocator.books.Numbered) (R := fun _ => True) hstart
    (fun _ _ hpre hx hokx _ => (effect_of_genuine hx hokx).booked.numbered hpre) h hok
    fun _ _ => trivial

/-- No piece of a record has such a failure, if it begins where the numbers in
use are below the next. -/
theorem Linked.not_internal {m : Assembly (Recorded σ)} {ms : List (Moment σ)} (h : Linked m ms)
    (hstart : m.allocator.books.Numbered) {x : Moment σ} (hx : x ∈ ms) {e : Failure}
    (hfailure : x.event.failure? = some e) : e.isInternal = false := by
  obtain ⟨pre, post, rfl⟩ := List.append_of_mem hx
  obtain ⟨hpre, hok, hbefore, hgenuine, -⟩ := h.split_cons
  refine hgenuine.not_internal ?_ hfailure
  rw [hbefore]
  exact hpre.numbered hok hstart

/-- No cycle has such a failure while the numbers in use are below the next. -/
theorem Assembly.not_internal_tick {m m' : Assembly (Recorded σ)} {now : Nat} {e : Failure}
    (hnumbered : m.allocator.books.Numbered) (h : m.tick now = .error e m') :
    e.isInternal = false := by
  rw [tick_moments, outcomeOf_eq_error_iff] at h
  obtain ⟨x, hx, hfailure⟩ := List.exists_of_findSome?_eq_some h.1
  exact (m.linked_tickMoments now).not_internal hnumbered hx hfailure

/-- What is taken for granted when a request that was formed is folded or
offered. -/
structure Assembly.Dispatches (m : Assembly σ) (now granted : Nat)
    (request : Coalesced) : Prop where
  /-- The ports that are retired are those behind the request, as they were when it
  was formed, and every one of them has a head to give when its turn comes. -/
  yields : ∀ turn retired m', m.dispatch now granted request = .ok turn m' →
    turn.request? = some retired → retired = request ∧ ∃ m₂ : Assembly σ,
      m₂.allocator.ports = m.allocator.ports ∧ m₂.Yields now request.ports ∧
      m'.allocator.ports = (m₂.retireHeads now request.ports).allocator.ports
  /-- A load that is chosen to be joined takes the request in. -/
  folds : request.cmd = .read → ∀ id, m.allocator.foldTarget? request = some id →
    ∃ a', m.allocator.foldInTime? request = some (id, request.size, a')
  /-- Only loads go to the memory for several transactions. -/
  alone : request.cmd ≠ .read → request.origins = [request.first]

/-- **What is taken for granted of a request that was formed holds of it.** -/
theorem Assembly.dispatches_of_forming {m m₁ : Assembly σ} {now granted : Nat}
    {request : Coalesced}
    (h : m.forming? now = some (granted, request, m₁)) : m₁.Dispatches now granted request where
  yields turn retired m' hdispatch hturn := by
    obtain ⟨rfl, m₂, hports, hretired⟩ := retires_dispatch hdispatch hturn
    exact ⟨rfl, m₂, hports, yields_of_formed h hports, hretired⟩
  folds hread id htarget := by
    cases hfold : m₁.allocator.foldInTime? request with
    -- a target that exists is folded into: `foldInTime?` fails only without one
    | none =>
      rw [(Allocator.foldInTime?_eq_none_iff hread).mp hfold] at htarget
      cases htarget
    | some r =>
      obtain ⟨id', folded, a'⟩ := r
      obtain ⟨htarget', -⟩ := Allocator.foldInTime?_eq_some hfold
      rw [htarget'] at htarget
      cases htarget
      exact ⟨a', by rw [Allocator.size_foldInTime? hfold]; rfl⟩
  alone hcmd := by
    obtain ⟨head, hformed⟩ := formed_of_forming h
    unfold Coalesced.origins
    rw [hformed.folded_eq_nil (hformed.cmd_eq ▸ hcmd)]

/-- **The allocator never fails by a fault of its own.**  After any calls in any
order, at whatever cycles, that broke no contract, no cycle fails because a
request number is in use or because a lock belongs to another port.  And every
turn of such a run either ends before it forms a request, or folds or offers the
request that it forms such that all ports behind it yield their heads when they
are retired, the load that is chosen to be joined takes it in, and it stands for
a single transaction unless it is a load. -/
theorem internal_failures_unreachable {config : AllocatorConfig} {a : Allocator}
    (hnew : Allocator.new config = .ok a) (s : σ) (j : Journal) (calls : List (Call σ)) :
    (Unbroken (run calls ⟨a, .start s, j⟩) → ∀ now e m',
      (endOf ⟨a, .start s, j⟩ (run calls ⟨a, .start s, j⟩)).tick now = .error e m' →
      e.isInternal = false) ∧
    ∀ x ∈ run calls ⟨a, .start s, j⟩, ∀ now result, x.event = .turned now result →
      (x.before.forming? now = none ∧
        (result = .ok .idle ∨ (∃ port, result = .ok (.parked port)) ∨
        ∃ port addr reach lineSize, result =
          .error (.invariant (.oversizedAccess port addr reach lineSize)))) ∨
      ∃ granted request m₁, x.before.forming? now = some (granted, request, m₁) ∧
        result = (m₁.dispatch now granted request).result ∧
        x.after = (m₁.dispatch now granted request).left ∧
        m₁.Dispatches now granted request := by
  have hlinked := linked_run calls ⟨a, .start s, j⟩
  refine ⟨fun hok now e m' htick => ?_, fun x hx now result hevent => ?_⟩
  · refine Assembly.not_internal_tick (hlinked.numbered hok ?_) htick
    rw [Allocator.books_new hnew]
    exact fun id request hid => by cases hid
  · obtain ⟨pre, post, hsplit⟩ := List.append_of_mem hx
    rw [hsplit] at hlinked
    obtain ⟨-, -, -, hgenuine, -⟩ := hlinked.split_cons
    cases hgenuine with
    | turned m t hbusy =>
      cases hevent
      -- no request was formed, or the turn is the dispatch of the one formed
      cases hforming : m.forming? now with
      | none => exact .inl ⟨rfl, Assembly.issueTurn_of_not_forming hforming⟩
      | some f =>
        obtain ⟨granted, request, m₁⟩ := f
        have hturn := Assembly.issueTurn_of_forming hforming
        exact .inr ⟨granted, request, m₁, rfl, congrArg Outcome.result hturn,
          congrArg Outcome.left hturn, Assembly.dispatches_of_forming hforming⟩
    | _ => cases hevent

end Runs

/-- A lane locks an address, and another lane waits for it until the lock runs
out of time. -/
def outlivedLock : List (Call (Lanes × EchoMemory)) :=
  [.submit 0 0 (.load .loadLocked 7 64 4), .tick 0, .submit 1 1 (.load .loadLocked 8 64 4),
    .tick 1, .tick 3]

/-- Where the two lanes begin. -/
def outlivedLockStart : Assembly (Recorded (Lanes × EchoMemory)) :=
  ⟨.ofConfig { numPorts := 2, requestLatency := 0, lockTimeout := 3 },
    .start (Lanes.plain 2, EchoMemory.new false), .start .warn⟩

/-- The second load-locked takes over the lock in the cycle of the sweep, and no
later cycle fails over it. -/
theorem internal_failures_unreachable_outlivedLock :
    (∀ now e m',
      (endOf outlivedLockStart (run outlivedLock outlivedLockStart)).tick now = .error e m' →
      e.isInternal = false) ∧
    ∃ x ∈ run outlivedLock outlivedLockStart,
      x.event = .turned 3 (.ok (.sent 1 ⟨1, 1, .loadLocked, 64, 4, []⟩
        ⟨64, ⟨1, .load .loadLocked 8 64 4⟩, []⟩)) ∧
      ∃ granted request m₁, x.before.forming? 3 = some (granted, request, m₁) ∧
        m₁.Dispatches 3 granted request := by
  have hnew : Allocator.new { numPorts := 2, requestLatency := 0, lockTimeout := 3 } =
      .ok outlivedLockStart.allocator := by rfl
  obtain ⟨hticks, hturns⟩ :=
    internal_failures_unreachable hnew (Lanes.plain 2, EchoMemory.new false)
    (.start .warn) outlivedLock
  refine ⟨hticks (by decide +kernel), ?_⟩
  have hsent : Event.turned 3 (.ok (.sent 1 ⟨1, 1, .loadLocked, 64, 4, []⟩
      ⟨64, ⟨1, .load .loadLocked 8 64 4⟩, []⟩)) ∈
      (run outlivedLock outlivedLockStart).map (·.event) := by
    decide +kernel
  obtain ⟨x, hx, hevent⟩ := List.mem_map.mp hsent
  refine ⟨x, hx, hevent, ?_⟩
  rcases hturns x hx 3 _ hevent with
    ⟨-, hidle | ⟨port, hparked⟩ | ⟨port, addr, reach, lineSize, hspilled⟩⟩ |
    ⟨granted, request, m₁, hforming, -, -, hdispatches⟩
  · cases hidle
  · cases hparked
  · cases hspilled
  · exact ⟨granted, request, m₁, hforming, hdispatches⟩

end MemPort
