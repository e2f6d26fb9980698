import MemPort.Proofs.Offers

/-!
# A refusal consumes nothing

A request that is offered to the memory may stand for many heads, and may have
been tried against the loads in flight before.  If the memory refuses it, all of
this is forgotten: no head has left its queue, no requestor has been told of
anything, and the next cycle may form another request from the same heads, under
the same number.  Only the flag of the backend port and the count of refusals
remember the attempt, and with the flag the cycle makes no further offer.

A lock that ran out of time may have been dropped before the request was formed;
that stays so.

## Main definitions

* `Allocator.Unspent` — what a refusal leaves as it was.

## Main results

* `Assembly.Turned.unspent` — a refused turn leaves it as it was.
* `pairwise_tickMoments` — behind a refusal, a cycle only checks its progress.
* `refusal_consumes_nothing` — what a refusal does to the allocator and the
  surroundings.

## References

`SPEC_FULL.md`, section 4.4, step 5, failure: heads are left untouched, and the
loop stops.
-/

namespace MemPort

/-- What a refusal leaves as it was: the queues and what their requestors are
owed, the requests in flight and the number of the next one, the rotation, the
time of the last activity, and the counters of everything but refusals and
dropped locks. -/
structure Allocator.Unspent (a b : Allocator) : Prop where
  /-- No head has left its queue, and every requestor is owed what it was. -/
  fronts : b.ports.map (fun p => (p.queue, p.needsRetry)) =
    a.ports.map fun p => (p.queue, p.needsRetry)
  /-- The same requests are in flight. -/
  outstanding : b.outstanding = a.outstanding
  /-- The number of the request is not used up. -/
  nextId : b.nextId = a.nextId
  /-- The rotation has not moved. -/
  arbiter : b.arbiter = a.arbiter
  /-- Nothing counts as activity. -/
  lastActive : b.lastActive = a.lastActive
  /-- One more refusal is counted, and at most dropped locks besides. -/
  counters : ∃ locksReleased, b.stats = { a.stats with
    backendBlocked := satAdd a.stats.backendBlocked 1, locksReleased }

theorem Allocator.fronts_unparkAll (a : Allocator) :
    a.unparkAll.ports.map (fun p => (p.queue, p.needsRetry)) =
      a.ports.map fun p => (p.queue, p.needsRetry) := by
  unfold unparkAll
  rw [List.map_map]
  rfl

/-- A turn that ends with a refusal: the head was cleared of locks, and the
memory refused the request that was formed for it. -/
theorem Assembly.Turned.of_refused {σ : Type} [Requestors σ] [Backend σ] {m m' : Assembly σ}
    {now granted : Nat} {sent : BackendRequest}
    (h : Turned m now (.ok (.refused granted sent)) m') :
    ∃ (m₁ : Assembly σ) (head : Transaction) (request : Coalesced),
      Cleared m m₁ now granted head ∧ Refuses m₁ m' now sent request := by
  cases h with
  | served hcleared _ hserved =>
    cases hserved with
    | refused hrefuses => exact ⟨_, _, _, hcleared, hrefuses⟩

/-- **A refused turn leaves the work to be done as it was**, whatever was folded
before. -/
theorem Assembly.Turned.unspent {σ : Type} [Requestors σ] [Backend σ] {m m' : Assembly σ}
    {now granted : Nat} {sent : BackendRequest}
    (h : Turned m now (.ok (.refused granted sent)) m') :
    m.allocator.Unspent m'.allocator ∧
      m'.allocator.backendPort = { m.allocator.backendPort with busy := true } := by
  obtain ⟨m₁, head, request, hcleared, hrefuses⟩ := h.of_refused
  obtain ⟨c, table, ports, stats, -, -, hports, ha₁⟩ := hcleared.allocator
  obtain ⟨stats', ha⟩ := hrefuses.allocator
  -- the check of the lock may have unparked ports, the offer was refused
  refine ⟨⟨?fronts, ?outstanding, ?nextId, ?arbiter, ?lastActive, ?counters⟩, ?port⟩
  case fronts =>
    rw [ha, ha₁]
    show ports.map _ = _
    rw [hports]
    split
    · exact m.allocator.fronts_unparkAll
    · rfl
  case outstanding => rw [ha, hcleared.outstanding_eq]
  case nextId => rw [ha, hcleared.nextId_eq]
  case arbiter => rw [ha, hcleared.arbiter_eq]
  case lastActive => rw [ha, ha₁]
  case counters =>
    rw [hrefuses.counted, hcleared.counted]
    split
    · exact ⟨_, rfl⟩
    · exact ⟨_, rfl⟩
  case port => rw [ha, hcleared.backendPort_eq]

section Genuine

variable {σ : Type} [Requestors σ] [Backend σ]

namespace Assembly

/-- A refusal is the last turn of a cycle. -/
theorem pairwise_turnMoments (now issued : Nat) (m : Assembly (Recorded σ)) :
    (m.turnMoments now issued).Pairwise fun x _ =>
      ∀ request, .offered request false ∉ x.event.exchanges := by
  fun_induction turnMoments now issued m with
  | case1 issued m _ => exact .nil
  | case2 issued m _ e m' _ => exact List.pairwise_singleton _ _
  | case3 issued m _ turn m' _ ih =>
    refine List.pairwise_cons.mpr ⟨fun y hy request hrequest => ?_, ?_⟩
    · cases turn with
      | idle => cases hy
      | refused granted sent => cases hy
      | parked granted => cases hrequest
      | folded granted id folded => cases hrequest
      | sent granted sent folded => cases List.mem_singleton.mp hrequest
    · split
      · rename_i hon
        exact ih hon
      · exact .nil

/-- **Behind a refusal, a cycle only checks its progress.** -/
theorem pairwise_tickMoments (m : Assembly (Recorded σ)) (now : Nat) :
    (m.tickMoments now).Pairwise fun x y =>
      (∃ request, .offered request false ∈ x.event.exchanges) →
        ∃ m₂ : Assembly (Recorded σ), y = m₂.checkMoment now := by
  obtain ⟨front, turns, back, hsplit, hfront, hturns, hback⟩ := m.tickMoments_split now
  have hquiet : ∀ x : Moment σ, x.event.exchanges = [] →
      ¬ ∃ request, .offered request false ∈ x.event.exchanges := by
    rintro x hx ⟨request, hrequest⟩
    rw [hx] at hrequest
    cases hrequest
  rw [hsplit]
  -- no offer in front of the turns, none after a refusal, the check behind
  refine List.pairwise_append.mpr ⟨?_, List.pairwise_append.mpr ⟨?_, ?_, ?_⟩, ?_⟩
  · exact List.pairwise_of_forall_mem_list fun x hx y _ hrefused =>
      absurd hrefused (hquiet x (hfront x hx))
  · rcases hturns with rfl | ⟨m₁, -, rfl⟩
    · exact .nil
    · exact (m₁.pairwise_turnMoments now 0).imp fun hnone ⟨request, hrequest⟩ =>
        absurd hrequest (hnone request)
  · exact List.pairwise_of_forall_mem_list fun x _ y hy _ => hback y hy
  · exact fun x _ y hy _ => hback y hy
  · exact fun x hx y _ hrefused => absurd hrefused (hquiet x (hfront x hx))

end Assembly

/-- Checks of progress call nobody, and leave the backend port alone. -/
theorem Linked.frame_checks {m : Assembly (Recorded σ)} {ms : List (Moment σ)}
    (h : Linked m ms) (now : Nat)
    (hchecks : ∀ y ∈ ms, ∃ m₂ : Assembly (Recorded σ), y = m₂.checkMoment now) :
    (endOf m ms).surroundings = m.surroundings ∧
      (endOf m ms).allocator.backendPort = m.allocator.backendPort := by
  induction h with
  | nil m => exact ⟨rfl, rfl⟩
  | @cons x rest _ _ _ ih =>
    obtain ⟨hs, hport⟩ := ih fun y hy => hchecks y (List.mem_cons_of_mem x hy)
    obtain ⟨m₂, rfl⟩ := hchecks x List.mem_cons_self
    obtain ⟨⟨next, ha⟩, hsame⟩ := m₂.frame_checkProgress now
    have hsameport : (m₂.checkProgress now).left.allocator.backendPort =
        m₂.allocator.backendPort := by rw [ha]
    exact ⟨hs.trans hsame, hport.trans hsameport⟩

/-- **A refusal consumes nothing.**  Whatever a cycle did before it offers a
request that the memory refuses, and whatever was gathered for the request:

* the turn leaves the queues, what requestors are owed, the requests in flight,
  the next number, the rotation and the time of the last activity as they were,
  and counts the refusal and nothing else, but for a lock that it dropped
  before;
* the port becomes busy;
* the offer is the only call that is made: no requestor hears of it;
* the rest of the cycle calls nobody, so it offers nothing, and leaves the port
  busy. -/
theorem refusal_consumes_nothing (m : Assembly (Recorded σ)) {now granted : Nat}
    {sent : BackendRequest} {pre post : List (Moment σ)} {x : Moment σ}
    (hsplit : m.tickMoments now = pre ++ x :: post)
    (hx : x.event = .turned now (.ok (.refused granted sent))) :
    x.before.allocator.Unspent x.after.allocator ∧
    (x.before.allocator.stats.backendBlocked < maxWord → x.after.allocator.stats.backendBlocked =
      x.before.allocator.stats.backendBlocked + 1) ∧
    x.before.allocator.backendPort.busy = false ∧
    x.after.allocator.backendPort = { x.before.allocator.backendPort with busy := true } ∧
    x.after.surroundings.contacts = .offered sent false :: x.before.surroundings.contacts ∧
    (m.tick now).left.surroundings = x.after.surroundings ∧
    (m.tick now).left.allocator.backendPort = x.after.allocator.backendPort := by
  have hlinked := m.linked_tickMoments now
  have hpairwise := m.pairwise_tickMoments now
  rw [hsplit] at hlinked hpairwise
  obtain ⟨-, -, -, hgenuine, hpost⟩ := hlinked.split_cons
  have hchecks := (List.pairwise_cons.mp (List.pairwise_append.mp hpairwise).2.1).1
  have hleft : (m.tick now).left = endOf x.after post := by
    rw [m.left_tick now, hsplit, endOf_append]
    rfl
  -- what follows in the tick is the check, which neither calls nor sends
  have hrest := hpost.frame_checks now fun y hy => by
    refine hchecks y hy ⟨sent, ?_⟩
    rw [hx]
    exact List.mem_singleton_self _
  have heffect := effect_of_genuine hgenuine (by rw [hx]; rfl)
  rw [hx] at heffect
  cases heffect with
  | turned hbusy _ hturned =>
    obtain ⟨hunspent, hport⟩ := hturned.unspent
    obtain ⟨m₁, head, request, hcleared, hrefuses⟩ := hturned.of_refused
    obtain ⟨notices, haccept⟩ := hrefuses.refused
    refine ⟨hunspent, fun hroom => ?_, hbusy, hport, ?_, ?_, ?_⟩
    · obtain ⟨released, hcounters⟩ := hunspent.counters
      rw [hcounters]
      exact satAdd_eq_add hroom
    · rw [(contacts_accept haccept).1, hcleared.surroundings]
    · rw [hleft]
      exact hrest.1
    · rw [hleft]
      exact hrest.2

end Genuine

/-- A store is in flight when two lanes load its line, and the memory closes. -/
def closedOverLoads : List (Call (Lanes × EchoMemory)) :=
  [.submit 0 2 (.store .write 1 128 [1, 2, 3, 4]), .tick 0, .submit 1 0 (.load .read 2 128 4),
    .submit 1 1 (.load .read 3 132 4), .elapse fun s => (s.1, s.2.close)]

/-- Where the three lanes begin. -/
def closedOverLoadsStart : Assembly (Recorded (Lanes × EchoMemory)) :=
  ⟨.ofConfig { numPorts := 3, requestLatency := 0, enableCoalescing := true },
    .start (Lanes.plain 3, EchoMemory.new false), .start .warn⟩

/-- In the next cycle both loads share a request, which is refused, and neither
is spent. -/
theorem refusal_consumes_nothing_closedOverLoads :
    ∃ x ∈ (endOf closedOverLoadsStart (run closedOverLoads closedOverLoadsStart)).tickMoments 1,
      x.event = .turned 1 (.ok (.refused 0 ⟨1, 0, .read, 128, 64, []⟩)) ∧
        x.before.allocator.Unspent x.after.allocator ∧
        x.after.allocator.backendPort = { x.before.allocator.backendPort with busy := true } := by
  obtain ⟨x, hx⟩ : ∃ x, ((endOf closedOverLoadsStart
      (run closedOverLoads closedOverLoadsStart)).tickMoments 1)[1]? = some x :=
    Option.isSome_iff_exists.mp (by decide +kernel)
  have hevent : ((endOf closedOverLoadsStart
      (run closedOverLoads closedOverLoadsStart)).tickMoments 1)[1]?.map (·.event) =
      some (.turned 1 (.ok (.refused 0 ⟨1, 0, .read, 128, 64, []⟩))) := by decide +kernel
  rw [hx] at hevent
  have hevent := Option.some.inj hevent
  obtain ⟨hunspent, -, -, hport, -⟩ := refusal_consumes_nothing
    (endOf closedOverLoadsStart (run closedOverLoads closedOverLoadsStart)) (eq_of_piece hx) hevent
  exact ⟨x, List.mem_of_getElem? hx, hevent, hunspent, hport⟩

end MemPort
