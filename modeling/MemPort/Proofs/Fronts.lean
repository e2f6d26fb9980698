import MemPort.Proofs.Bookkeeping

/-!
# What a piece of a run does to a front end

The front end of a port is a queue with two flags: whether its requestor is owed
a retry, and whether the port is parked on a lock.  A piece of a run leaves a
front end alone but for five things: a submission is admitted or refused, a head
is retired, the port is parked, and all ports are let try again.  Here this is
said for one port at a time, together with the number of retries that its
requestor is told of meanwhile.

## Main definitions

* `Tells` — surroundings after calls with a number of retries to one port.
* `FrontStep` — what a piece of a run does to one front end.
* `AllUnlock` — front ends as they were, or all let try again.

## Main results

* `Retired.tells` — retiring heads tells the requestors that were refused,
  once each.
* `fronted_of_genuine` — every genuine piece does one of these things to a
  front end.
* `Moment.Genuine.length_ports` — no front end comes or goes.

## References

`SPEC_FULL.md`, sections 3 and 4.1: the queue of a port, and its two flags.
-/

namespace MemPort

/-! ### Retries among the calls -/

/-- The surroundings after some calls, of which a number are retries to one port. -/
def Tells {σ : Type} (port : Nat) (s t : Recorded σ) (n : Nat) : Prop :=
  ∃ cs, t.contacts = cs ++ s.contacts ∧ cs.count (.retried port) = n

namespace Tells

variable {σ : Type} {port n n' : Nat} {s t u : Recorded σ}

/-- No call was made. -/
theorem same (h : t.contacts = s.contacts) : Tells port s t 0 := ⟨[], h, rfl⟩

theorem trans (h : Tells port s t n) (h' : Tells port t u n') : Tells port s u (n + n') := by
  obtain ⟨cs, hcs, rfl⟩ := h
  obtain ⟨cs', hcs', rfl⟩ := h'
  refine ⟨cs' ++ cs, ?_, ?_⟩
  · rw [hcs', hcs, List.append_assoc]
  · rw [List.count_append, Nat.add_comm]

/-- One call was made. -/
theorem one {c : Contact} (h : t.contacts = c :: s.contacts) :
    Tells port s t (if c = .retried port then 1 else 0) := by
  refine ⟨[c], h, ?_⟩
  rw [List.count_singleton]
  simp only [beq_iff_eq]

/-- One call was made, and it was no retry. -/
theorem other {c : Contact} (h : t.contacts = c :: s.contacts) (hc : c ≠ .retried port) :
    Tells port s t 0 := by
  have hone : Tells port s t (if c = .retried port then 1 else 0) := one h
  rwa [if_neg hc] at hone

end Tells

section Calls

variable {σ : Type}

/-- Snoops are no retries. -/
theorem Snooped.tells [Requestors σ] {snoop? : Option Snoop} {s t : Recorded σ}
    (h : Snooped snoop? s t) (port : Nat) : Tells port s t 0 := by
  induction h with
  | refl => exact .same rfl
  | @snooped t lane snoop _ _ _ _ ih => exact ih.trans (.other (c := .snooped lane snoop) rfl nofun)

/-- **Retiring tells the requestors that were refused**, each of them once. -/
theorem Retired.tells [Requestors σ] {now : Nat} {ports : List Nat}
    {x y : List RequestorPort × Recorded σ} (h : Retired now ports x y) (hnodup : ports.Nodup)
    (q : Nat) : Tells q x.2 y.2
      (if q ∈ ports ∧ x.1[q]?.any (·.needsRetry) = true then 1 else 0) := by
  induction h with
  | nil x =>
    rw [if_neg nofun]
    exact .same rfl
  | @cons port rest ps s p p' e y hp hpop _ ih =>
    obtain ⟨hfresh, hnodup⟩ := List.nodup_cons.mp hnodup
    have htail := ih hnodup
    -- the retry that the first port may be owed
    have hfirst : Tells q s (if p.needsRetry then (Requestors.notifyRetry port s).value else s)
        (if q = port ∧ p.needsRetry = true then 1 else 0) := by
      cases howed : p.needsRetry with
      | false =>
        rw [if_neg nofun, if_neg nofun]
        exact .same rfl
      | true =>
        rw [if_pos rfl]
        have hone : Tells q s (Requestors.notifyRetry port s).value
            (if Contact.retried port = .retried q then 1 else 0) := Tells.one rfl
        simpa [eq_comm] using hone
    have hboth := hfirst.trans htail
    by_cases hq : q = port
    · subst hq
      rw [if_neg (fun hmem : q ∈ rest ∧ _ => hfresh hmem.1)] at hboth
      simpa [hp] using hboth
    · have hkept : (ps.set port { p' with needsRetry := false })[q]? = ps[q]? :=
        List.getElem?_set_ne (Ne.symm hq)
      rw [hkept] at hboth
      simpa [hq] using hboth

theorem tells_accept [Backend σ] {now : Nat} {request : BackendRequest} {s t : Recorded σ}
    {accepted : Bool} {notices : List Notice}
    (h : Backend.accept now request s = .ok ⟨(accepted, t), notices⟩) (port : Nat) :
    Tells port s t 0 := by
  obtain ⟨l, -, hl⟩ := exists_of_map_eq_ok
    (f := fun l : Logged (Bool × σ) => l.map fun r =>
      (r.1, (⟨r.2, .offered request r.1 :: s.contacts⟩ : Recorded σ))) h
  cases hl
  exact .other rfl nofun

theorem tells_accessFunctional [Backend σ] {request : BackendRequest} {s : Recorded σ}
    {l : Logged (BackendResponse × Recorded σ)} (h : Backend.accessFunctional request s = .ok l)
    (port : Nat) : Tells port s l.value.2 0 := by
  obtain ⟨l, -, hl⟩ := exists_of_map_eq_ok
    (f := fun l : Logged (BackendResponse × σ) => l.map fun r =>
      (r.1, (⟨r.2, .performed request r.1 :: s.contacts⟩ : Recorded σ))) h
  cases hl
  exact .other rfl nofun

namespace Assembly

variable [Requestors σ]

/-- Handing an answer out tells nobody to try again, whether or not it fails. -/
theorem tells_answer (m : Assembly (Recorded σ)) (now : Nat) (response : BackendResponse)
    (port : Nat) : Tells port m.surroundings (m.answer now response).left.surroundings 0 := by
  refine answer_keeps (P := fun m' => Tells port m.surroundings m'.surroundings 0)
    (fun m' q completion h => ?_) (fun _ h => h) (fun _ h => h) m (fun _ => .same rfl)
    (fun _ => .same rfl)
  rw [left_deliver]
  have hdelivered : Tells port m'.surroundings
      (Requestors.deliver q completion m'.surroundings).value.2 0 := .other rfl nofun
  exact h.trans hdelivered

end Assembly

end Calls

/-! ### Front ends -/

/-- Whether a submission on a port is refused. -/
def Event.refuses (port : Nat) : Event → Bool
  | .submitted _ q _ (.ok false) => q == port
  | _ => false

/-- What a piece of a run does to the front end of a port, with the number of
retries that its requestor is told of. -/
inductive FrontStep (port : Nat) (e : Event) : Nat → RequestorPort → RequestorPort → Prop
  /-- Its queue and its debt stay as they were. -/
  | kept {p p' : RequestorPort} (hqueue : p'.queue = p.queue)
      (howed : p'.needsRetry = p.needsRetry)
      (hlocked : p'.locked = true → p.locked = true ∨
        ∃ now, e = .turned now (.ok (.parked port)))
      (hserved : ∀ o ∈ e.served, o.2.port ≠ port) (hrefused : e.refuses port = false) :
      FrontStep port e 0 p p'
  /-- A submission is admitted. -/
  | admitted {p : RequestorPort} {now : Nat} {txn : Transaction} {queue : TimedQueue Transaction}
      (he : e = .submitted now port txn (.ok true)) (hpush : p.queue.push? now txn = some queue) :
      FrontStep port e 0 p { p with queue }
  /-- A submission is refused. -/
  | refused {p : RequestorPort} {now : Nat} {txn : Transaction}
      (he : e = .submitted now port txn (.ok false)) (hpush : p.queue.push? now txn = none) :
      FrontStep port e 0 p { p with needsRetry := true }
  /-- The head goes with a request that is sent or joins a load in flight. -/
  | retired {p p' : RequestorPort} {now : Nat} {turn : Turn} {head : Stamped Transaction}
      (he : e = .turned now (.ok turn)) (hserved : ∃ o ∈ e.served, o.2.port = port)
      (hpop : p.queue.pop? now = some (head, p'.queue)) (howed : p'.needsRetry = false)
      (hlocked : p'.locked = false) :
      FrontStep port e (if p.needsRetry = true then 1 else 0) p p'

/-- What a piece of a run does to the front end of a port that exists, and to
the surroundings. -/
def Fronted {σ : Type} (port : Nat) (m : Assembly (Recorded σ)) (e : Event)
    (m' : Assembly (Recorded σ)) : Prop :=
  ∀ p, m.allocator.ports[port]? = some p → ∃ p' n, m'.allocator.ports[port]? = some p' ∧
    Tells port m.surroundings m'.surroundings n ∧ FrontStep port e n p p'

/-- A front end as it was, or let try again. -/
def Unlocks (p p' : RequestorPort) : Prop :=
  p'.queue = p.queue ∧ p'.needsRetry = p.needsRetry ∧ (p'.locked = true → p.locked = true)

/-- Front ends as they were, or all let try again. -/
def AllUnlock (a b : Allocator) : Prop :=
  b.ports = a.ports ∨ b.ports = a.unparkAll.ports

theorem AllUnlock.get? {a b : Allocator} (h : AllUnlock a b) {port : Nat} {p : RequestorPort}
    (hp : a.ports[port]? = some p) : ∃ p', b.ports[port]? = some p' ∧ Unlocks p p' := by
  rcases h with h | h
  · rw [h]
    exact ⟨p, hp, rfl, rfl, id⟩
  · rw [h]
    unfold Allocator.unparkAll
    rw [List.getElem?_map, hp]
    exact ⟨_, rfl, rfl, rfl, nofun⟩

section Genuine

variable {σ : Type} [Requestors σ] [Backend σ]

omit [Requestors σ] [Backend σ] in
/-- A piece that serves and refuses nothing, keeps the queues and calls nobody
back. -/
theorem Fronted.of_unlock {port : Nat} {m m' : Assembly (Recorded σ)} {e : Event}
    (h : AllUnlock m.allocator m'.allocator) (hs : Tells port m.surroundings m'.surroundings 0)
    (hserved : ∀ o ∈ e.served, o.2.port ≠ port) (hrefused : e.refuses port = false) :
    Fronted port m e m' := by
  intro p hp
  obtain ⟨p', hp', hqueue, howed, hlocked⟩ := h.get? hp
  exact ⟨p', 0, hp', hs, .kept hqueue howed (fun hl => Or.inl (hlocked hl)) hserved hrefused⟩

omit [Requestors σ] [Backend σ] in
theorem Allocator.ports_submit {a : Allocator} {now q : Nat} {txn : Transaction}
    {l : Logged (Bool × Allocator)} (h : a.submit now q txn = .ok l) :
    ∃ p, a.ports[q]? = some p ∧ l.value.1 = (p.push now txn).value.1 ∧
      l.value.2.ports = a.ports.set q (p.push now txn).value.2 := by
  obtain ⟨p, hp, hl⟩ := exists_of_submit h
  rw [hl]
  exact ⟨p, hp, rfl, rfl⟩

omit [Requestors σ] [Backend σ] in
theorem fronted_submit {port now q : Nat} {txn : Transaction} {m : Assembly (Recorded σ)}
    (hok : ∀ a, (m.submit now q txn).result ≠ .error (.assertion a)) :
    Fronted port m (.submitted now q txn (m.submit now q txn).result)
      (m.submit now q txn).left := by
  obtain ⟨l, hsubmit, heq⟩ := Assembly.exists_of_submit hok
  rw [heq]
  obtain ⟨p₀, hp₀, htaken, hports⟩ := Allocator.ports_submit hsubmit
  intro p hp
  simp only [Outcome.result_ok, Outcome.left_ok, Assembly.allocator_noteAll]
  rw [hports]
  -- only the port of the submission changes; after a refusal it owes a retry
  by_cases hq : q = port
  · subst hq
    rw [hp₀] at hp
    cases hp
    have hlt := (List.getElem?_eq_some_iff.mp hp₀).1
    rw [List.getElem?_set_self hlt]
    unfold RequestorPort.push at htaken ⊢
    cases hpush : p₀.queue.push? now txn with
    | none =>
      rw [hpush] at htaken
      rw [htaken]
      exact ⟨_, 0, rfl, .same rfl, .refused rfl hpush⟩
    | some queue =>
      rw [hpush] at htaken
      rw [htaken]
      exact ⟨_, 0, rfl, .same rfl, .admitted rfl hpush⟩
  · rw [List.getElem?_set_ne hq]
    refine ⟨p, 0, hp, .same rfl, .kept rfl rfl Or.inl nofun ?_⟩
    cases l.value.1 with
    | true => rfl
    | false => exact beq_false_of_ne hq

omit [Requestors σ] [Backend σ] in
theorem Relays.ports {a b : Allocator} (h : Relays a b) : b.ports = a.ports := by
  obtain ⟨_, _, rfl⟩ := h.frame
  rfl

omit [Requestors σ] [Backend σ] in
/-- A sweep lets all parked ports try again, or drops no lock. -/
theorem swept_cases (m : Assembly σ) (now : Nat) :
    (m.sweepLocks now).allocator.ports = m.allocator.unparkAll.ports ∨
      (m.sweepLocks now).allocator.ports = m.allocator.ports ∧
        (m.allocator.locks.expire now).1 = 0 := by
  obtain ⟨-, ha | ⟨hnone, ha⟩⟩ := m.sweepLocks_cases now
  · exact Or.inl (by rw [ha])
  · exact Or.inr ⟨by rw [ha], hnone⟩

/-! ### Turns -/

omit [Requestors σ] [Backend σ] in
theorem Assembly.Cleared.unlock {m m' : Assembly σ} {now granted : Nat} {head : Transaction}
    (h : Assembly.Cleared m m' now granted head) : AllUnlock m.allocator m'.allocator := by
  obtain ⟨c, table, ports, stats, -, -, hports, ha⟩ := h.allocator
  unfold AllUnlock
  rw [ha, hports]
  split
  · exact Or.inr rfl
  · exact Or.inl rfl

omit [Requestors σ] [Backend σ] in
/-- Removing a head touches the queue alone, of a port that is not parked. -/
theorem RequestorPort.queue_pop? {p p' : RequestorPort} {now : Nat} {e : Stamped Transaction}
    (h : p.pop? now = some (e, p')) :
    p.queue.pop? now = some (e, p'.queue) ∧ p'.locked = false := by
  obtain ⟨hopen, queue, hqueue, rfl⟩ := pop?_eq_some h
  exact ⟨hqueue, hopen⟩

omit [Backend σ] in
/-- What becomes of a front end when a head was cleared and heads were then
retired. -/
theorem fronted_retired {port now granted id : Nat} {turn : Turn} {head : Transaction}
    {request : Coalesced} {m m₁ m' : Assembly (Recorded σ)} {s : Recorded σ}
    (hcleared : Assembly.Cleared m m₁ now granted head)
    (hformed : request.FormedFrom m.allocator now granted head)
    (hs : Tells port m.surroundings s 0)
    (hretired : Retired now request.ports (m₁.allocator.ports, s)
      (m'.allocator.ports, m'.surroundings))
    (hserved : Event.served (.turned now (.ok turn)) = request.origins.map fun o => (id, o)) :
    Fronted port m (.turned now (.ok turn)) m' := by
  intro p hp
  obtain ⟨p₁, hp₁, hqueue, howed, hlocked⟩ := hcleared.unlock.get? hp
  obtain ⟨hmem, hkept⟩ := hretired.get? hformed.nodup port
  have htells := hs.trans (hretired.tells hformed.nodup port)
  rw [Nat.zero_add] at htells
  simp only [hp₁, Option.any_some, howed] at htells
  -- the port lost its head to the request, or it kept its front
  by_cases hport : port ∈ request.ports
  · obtain ⟨p₂, e, p', hp₂, hpop, hp'⟩ := hmem hport
    rw [hp₁] at hp₂
    cases hp₂
    obtain ⟨hpop, hopen⟩ := RequestorPort.queue_pop? hpop
    rw [hqueue] at hpop
    obtain ⟨o, ho, hoport⟩ := List.mem_map.mp hport
    simp only [hport, true_and] at htells
    refine ⟨_, _, hp', htells, .retired rfl ⟨(id, o), ?_, hoport⟩ hpop rfl hopen⟩
    rw [hserved]
    exact List.mem_map_of_mem ho
  · rw [if_neg (fun h => hport h.1)] at htells
    refine ⟨p₁, 0, (hkept hport).trans hp₁, htells,
      .kept hqueue howed (fun hl => Or.inl (hlocked hl)) ?_ rfl⟩
    rw [hserved]
    intro o ho hoport
    obtain ⟨o, ho', rfl⟩ := List.mem_map.mp ho
    exact hport (List.mem_map.mpr ⟨o, ho', hoport⟩)

/-- What a turn does to the front end of a port. -/
theorem fronted_turned {port now : Nat} {result : Except Failure Turn}
    {m m' : Assembly (Recorded σ)} (h : Assembly.Turned m now result m')
    (hok : ∀ a, result ≠ .error (.assertion a)) : Fronted port m (.turned now result) m' := by
  cases h with
  | idle _ => exact .of_unlock (Or.inl rfl) (.same rfl) nofun rfl
  | @parked m' granted owner head _ _ ha _ hs =>
    obtain ⟨p₀, stats, hp₀, ha⟩ := ha
    intro p hp
    rw [ha]
    simp only
    by_cases hq : granted = port
    · subst hq
      rw [hp₀] at hp
      cases hp
      have hlt := (List.getElem?_eq_some_iff.mp hp₀).1
      rw [List.getElem?_set_self hlt]
      exact ⟨_, 0, rfl, .same (congrArg _ hs),
        .kept rfl rfl (fun _ => Or.inr ⟨now, rfl⟩) nofun rfl⟩
    · rw [List.getElem?_set_ne hq]
      exact ⟨p, 0, hp, .same (congrArg _ hs), .kept rfl rfl Or.inl nofun rfl⟩
  | spilled hcleared _ _ _ =>
    exact .of_unlock hcleared.unlock (.same (congrArg _ hcleared.surroundings)) nofun rfl
  | @served m₁ _ granted head request _ hcleared hformed hserved =>
    have hs : m₁.surroundings = m.surroundings := hcleared.surroundings
    cases hserved with
    | broken a => exact absurd rfl (hok a)
    | duplicate _ h _ =>
      rw [h]
      exact .of_unlock hcleared.unlock (.same (congrArg _ hs)) nofun rfl
    -- the offer was refused, so only the check of the lock can have unparked
    | refused h =>
      obtain ⟨notices, haccept⟩ := h.refused
      obtain ⟨stats, ha⟩ := h.allocator
      rw [hs] at haccept
      refine .of_unlock ?_ (tells_accept haccept port) nofun rfl
      have hunlock := hcleared.unlock
      unfold AllUnlock at hunlock ⊢
      rw [ha]
      exact hunlock
    | sent h _ =>
      obtain ⟨s, notices, t, haccept, hsnooped, hretired⟩ := h.retired
      rw [hs] at haccept
      exact fronted_retired hcleared hformed
        ((tells_accept haccept port).trans (hsnooped.tells port)) hretired rfl
    | folded h _ =>
      have hretired := h.retired
      rw [hs] at hretired
      exact fronted_retired hcleared hformed (.same rfl) hretired rfl

/-! ### All pieces -/

theorem fronted_functional {port now q : Nat} {txn : Transaction} (m : Assembly (Recorded σ))
    (hok : ∀ a, (m.accessFunctional now q txn).result ≠ .error (.assertion a)) :
    Fronted port m (.performed now q txn (m.accessFunctional now q txn).result)
      (m.accessFunctional now q txn).left := by
  obtain ⟨v, h⟩ | ⟨response, m', h⟩ := Assembly.accessFunctional_cases hok
  · rw [h]
    exact .of_unlock (Or.inl rfl) (.same rfl) nofun rfl
  · rw [h]
    obtain ⟨-, m₁, l, htold, hperformed, rfl, rfl⟩ := Assembly.accessFunctional_eq_ok h
    obtain ⟨⟨stats, ha⟩, hsnooped⟩ := Assembly.frame_broadcast? htold
    refine .of_unlock (Or.inl ?_)
      ((hsnooped.tells port).trans (tells_accessFunctional hperformed port)) nofun rfl
    rw [Outcome.left_ok, Assembly.allocator_update, Assembly.ports_count, ha]
    rfl

/-- **What a piece of a run does to the front end of a port**, unless it breaks
a contract. -/
theorem fronted_of_genuine {x : Moment σ} (h : x.Genuine) (hok : x.event.isBroken = false)
    (port : Nat) : Fronted port x.before x.event x.after := by
  cases h with
  | submitted m now q txn => exact fronted_submit (Event.ne_assertion hok rfl)
  | received m now response =>
    exact .of_unlock (Or.inl (Relays.received now response .refl).ports) (.same rfl) nofun rfl
  | resumed m => exact .of_unlock (Or.inl rfl) (.same rfl) nofun rfl
  | performed m now q txn => exact fronted_functional m (Event.ne_assertion hok rfl)
  | elapsed m a s j h => exact .of_unlock (Or.inl h.ports) (.same rfl) nofun rfl
  | interrupted m now a => cases hok
  | answered m now response backendPort _ =>
    obtain ⟨stats, lastActive, ha⟩ := Assembly.frame_answer
      (m.update fun a => { a with backendPort }) now response
    refine .of_unlock (Or.inl ?_) (Assembly.tells_answer _ now response port) nofun rfl
    rw [ha]
    rfl
  | settled m now =>
    refine .of_unlock (Or.inl (by rw [m.allocator_settleResponses])) ?_ nofun rfl
    unfold Assembly.settleResponses
    simp only
    split
    · exact .other rfl nofun
    · exact .same rfl
  | swept m now =>
    exact .of_unlock ((swept_cases m now).symm.imp_left And.left)
      (.same (congrArg _ (m.sweepLocks_cases now).1)) nofun rfl
  | turned m now h =>
    exact fronted_turned (Assembly.turned_issueTurn h) (Event.ne_assertion hok rfl)
  | checked m now =>
    have heffect := effect_of_genuine (.checked m now) hok
    unfold Assembly.checkMoment at heffect ⊢
    cases heffect with
    | checked ha hs =>
      obtain ⟨next, ha⟩ := ha
      exact .of_unlock (Or.inl (by rw [ha])) (.same (congrArg _ hs)) nofun rfl

/-! ### No front end comes or goes -/

omit [Requestors σ] [Backend σ] in
theorem AllUnlock.length {a b : Allocator} (h : AllUnlock a b) :
    b.ports.length = a.ports.length := by
  rcases h with h | h
  · rw [h]
  · rw [h]
    exact List.length_map _

omit [Backend σ] in
theorem Retired.length {now : Nat} {ports : List Nat} {x y : List RequestorPort × σ}
    (h : Retired now ports x y) : y.1.length = x.1.length := by
  induction h with
  | nil x => rfl
  | cons hp hpop _ ih => exact ih.trans (List.length_set ..)

/-- A turn keeps the front ends. -/
theorem Assembly.Turned.length_ports {now : Nat} {result : Except Failure Turn} {m m' : Assembly σ}
    (h : Assembly.Turned m now result m') (hok : ∀ a, result ≠ .error (.assertion a)) :
    m'.allocator.ports.length = m.allocator.ports.length := by
  cases h with
  | idle _ => rfl
  | parked _ _ ha _ _ _ =>
    obtain ⟨p, stats, -, ha⟩ := ha
    rw [ha]
    exact List.length_set ..
  | spilled hcleared _ _ _ => exact hcleared.unlock.length
  | served hcleared _ hserved =>
    have hlength := hcleared.unlock.length
    cases hserved with
    | broken a => exact absurd rfl (hok a)
    | duplicate _ h _ =>
      rw [h]
      exact hlength
    | refused h =>
      obtain ⟨stats, ha⟩ := h.allocator
      rw [ha]
      exact hlength
    | sent h _ =>
      obtain ⟨s, notices, t, -, -, hretired⟩ := h.retired
      exact hretired.length.trans hlength
    | folded h _ => exact h.retired.length.trans hlength

/-- **Every piece of a run keeps the front ends**: there are as many ports as
before. -/
theorem Moment.Genuine.length_ports {x : Moment σ} (h : x.Genuine)
    (hok : x.event.isBroken = false) :
    x.after.allocator.ports.length = x.before.allocator.ports.length := by
  have heffect := effect_of_genuine h hok
  by_cases hmemory : x.event.isFromMemory = true
  · obtain ⟨backendPort, outstanding, stats, _, ha⟩ := heffect.frame_fromMemory hmemory
    rw [ha]
  -- a requestor calls, or the allocator does something by itself
  cases h with
  | submitted m now q txn =>
    obtain ⟨l, hsubmit, heq⟩ := Assembly.exists_of_submit (Event.ne_assertion hok rfl)
    obtain ⟨p, -, -, hports⟩ := Allocator.ports_submit hsubmit
    simp only [heq, Outcome.left_ok, Assembly.allocator_noteAll]
    rw [hports, List.length_set]
  | performed m now q txn =>
    -- the access went through, or was rejected before it changed anything
    generalize (m.accessFunctional now q txn).result = result at heffect
    cases heffect with
    | performed ha _ =>
      obtain ⟨stats, ha⟩ := ha
      rw [ha]
    | rejected hsame => rw [hsame]
  | interrupted m now a => rfl
  | swept m now =>
    have hunlock : AllUnlock m.allocator (m.sweepLocks now).allocator :=
      (swept_cases m now).symm.imp_left And.left
    exact hunlock.length
  | turned m now h =>
    have hturned : Assembly.Turned m now (m.issueTurn now).result (m.issueTurn now).left :=
      Assembly.turned_issueTurn h
    exact hturned.length_ports (Event.ne_assertion hok rfl)
  | checked m now =>
    obtain ⟨⟨next, ha⟩, -⟩ := m.frame_checkProgress now
    have hports := congrArg Allocator.ports ha
    exact congrArg List.length hports
  | _ => exact absurd rfl hmemory

end Genuine

end MemPort
