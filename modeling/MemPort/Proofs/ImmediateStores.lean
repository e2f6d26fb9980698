import MemPort.Proofs.Invalidations
import MemPort.Proofs.Redundancy
import MemPort.Proofs.Serializability
import MemPort.Proofs.StoreVisibility

/-!
# Stores that bypass the queues

A store at once changes the memory behind the back of the requests in flight.  A
load that leaves its queue afterwards may still be folded into one that the
memory took before, and then it gets the bytes from before the store: nothing
among the requests in flight tells that the line has changed.  So a load sees
the store exactly if every load of the line that was in flight with a smaller
number has a store of the line behind it, or if loads never share an access.

The memory answers in order here, and every answer on its way is tied to the
piece of the run in which the memory took the request.

## Main definitions

* `Move`, `playMoves` — acts and accesses at once, and what they do.
* `BackendRequest.Puts` — a store puts a byte at an address.
* `Moment.Smooth` — a piece of a run in which nothing goes wrong.
* `Shows` — the answer of a load shows the memory at the moment at which it
  took the load.

## Main results

* `Shows.all_after` — every piece keeps the answers on their way tied to the
  requests in flight.
* `byteAt_of_linked` — a byte changes only by stores.
* `puts_of_immediate` — the bytes of a store at once stay until a later store
  puts others there.
* `load_sees_immediate_store` — which bytes a load gets after a store at once.
* `immediate_store_hidden_from_load` — they need not be those of the store.

## References

`SPEC_FULL.md`, section 10.6, items 2 and 7: accesses at once, and the guard of
stores.
-/

namespace MemPort

/-! ### Accesses at once -/

/-- What may be done with a system: an act, or an access that bypasses the
queues. -/
inductive Move where
  /-- An act. -/
  | act (c : Act)
  /-- An access that is performed at once. -/
  | immediate (now port : Nat) (txn : Transaction)

/-- A piece in which an access is performed at once, or is refused. -/
def Moment.IsImmediate {σ : Type} (x : Moment σ) : Prop :=
  ∃ now port txn result, x.event = .performed now port txn result

section Moves

variable {ρ : Type} [Requestors ρ]

/-- The pieces of a move. -/
def Move.moments (c : Move) (m : System ρ) : List (Moment (ρ × DelayedMemory)) :=
  match c with
  | act c => c.moments m
  | immediate now port txn => (Call.functional now port txn).moments m

/-- What some moves do, one after the other. -/
def playMoves (moves : List Move) (m : System ρ) : List (Moment (ρ × DelayedMemory)) :=
  runBy Move.moments moves m

/-- **The record of what some moves do is linked.** -/
theorem linked_playMoves (moves : List Move) (m : System ρ) : Linked m (playMoves moves m) := by
  refine linked_runBy (fun c m => ?_) moves m
  cases c with
  | act c => exact c.linked_moments m
  | immediate now port txn => exact Call.linked_moments (.functional now port txn) m

/-- Every piece is closed, or an access at once. -/
theorem closed_or_immediate {moves : List Move} {m : System ρ} {x : Moment (ρ × DelayedMemory)}
    (h : x ∈ playMoves moves m) : x.Closed ∨ x.IsImmediate := by
  obtain ⟨c, -, m', hx⟩ := mem_runBy h
  cases c with
  | act c => exact Or.inl (Act.closed_moments hx).1
  | immediate now port txn =>
    rw [List.mem_singleton.mp hx]
    exact Or.inr ⟨_, _, _, _, rfl⟩

end Moves

/-! ### What the memory holds -/

/-- The request of an access at once. -/
def Origin.immediate (o : Origin) : BackendRequest := o.alone functionalId

/-- The requests that the memory took, in order. -/
def requestsIn (es : List Event) : List BackendRequest := es.flatMap Event.requests

/-- A store puts a byte at an address. -/
def BackendRequest.Puts (r : BackendRequest) (addr : Nat) (b : UInt8) : Prop :=
  r.cmd.isExclusive = true ∧ r.addr ≤ addr ∧ r.data[addr - r.addr]? = some b

namespace DelayedMemory

variable {d d' : DelayedMemory} {request : BackendRequest} {answer : BackendResponse} {addr : Nat}

/-- The byte at an address. -/
def byteAt (d : DelayedMemory) : Nat → UInt8 := d.memory.contents.byteAt

theorem Agrees.byteAt_eq (h : d.Agrees d') : d'.byteAt = d.byteAt := by
  unfold byteAt
  rw [h.memory]

/-- **An access changes a byte only by putting another there.** -/
theorem byteAt_of_perform (h : d.perform request = .ok (answer, d')) (addr : Nat) :
    d'.byteAt addr = d.byteAt addr ∨ request.Puts addr (d'.byteAt addr) := by
  obtain ⟨-, -, -, hsame | ⟨hstore, hchanged⟩⟩ := of_perform h
  · left
    unfold byteAt
    rw [hsame]
  · unfold byteAt
    rw [hchanged]
    simp only [ByteMap.byteAt_store]
    split
    · rename_i hle
      rw [List.getD_eq_getElem?_getD]
      cases hbyte : request.data[addr - request.addr]? with
      | none => exact Or.inl rfl
      | some b => exact Or.inr ⟨hstore, hle, hbyte⟩
    · exact Or.inl rfl

/-- A store that is not conditional puts all its bytes. -/
theorem puts_of_perform (h : d.perform request = .ok (answer, d'))
    (hcmd : request.cmd = .write ∨ request.cmd = .swap) (hle : request.addr ≤ addr)
    (hlt : addr < request.addr + request.data.length) : request.Puts addr (d'.byteAt addr) := by
  have hstored : d.storeFor request = .ok d' := by
    cases performed_of_perform h with
    | stored _ hstore => exact hstore
    | swapped _ _ hstore => exact hstore
    | loaded hcmd' _ => rcases hcmd with hcmd | hcmd <;> cases hcmd'.symm.trans hcmd
    | reserved hcmd' _ => rcases hcmd with hcmd | hcmd <;> cases hcmd'.symm.trans hcmd
    | kept hcmd' _ _ => rcases hcmd with hcmd | hcmd <;> cases hcmd'.symm.trans hcmd
    | lost hcmd' _ => rcases hcmd with hcmd | hcmd <;> cases hcmd'.symm.trans hcmd
  obtain ⟨-, -, hmemory⟩ := storeFor_eq_ok hstored
  have hin : addr - request.addr < request.data.length := by omega
  refine ⟨?_, hle, ?_⟩
  · rcases hcmd with hcmd | hcmd <;> rw [hcmd] <;> rfl
  · unfold byteAt
    rw [hmemory]
    simp only [ByteMap.byteAt_store]
    rw [if_pos hle, List.getD_eq_getElem?_getD, List.getElem?_eq_getElem hin]
    rfl

end DelayedMemory

section Pieces

variable {ρ : Type} [Requestors ρ]

/-- A request that went out and left no failure was performed. -/
theorem perform_of_sent {m m' : System ρ} {now granted : Nat} {sent : BackendRequest}
    {request : Coalesced} (h : Effect m m' (.turned now (.ok (.sent granted sent request))))
    (hfault : m'.memory.fault = none) :
    ∃ answer d, m.memory.perform sent = .ok (answer, d) := by
  cases h with
  | turned _ _ h =>
    cases h with
    | @served m₁ _ _ _ _ _ hcleared _ hserved =>
      cases hserved with
      | sent hsends _ =>
        have hmemory : m₁.memory = m.memory := congrArg (fun s => s.inner.2) hcleared.surroundings
        obtain ⟨s, notices, haccept, hnotified⟩ := hsends.accepted
        have htold : m'.memory = s.inner.2 := hnotified.memory_eq
        rw [htold] at hfault
        rw [← hmemory]
        exact DelayedMemory.perform_of_accept (accept_pair (accept_recorded haccept).2) hfault

/-- What an access at once does to the ledger: it is performed, and moves no
transaction and no answer. -/
structure Ledger.Performs (l l' : Ledger) (request : BackendRequest) : Prop where
  /-- The books stay as they are. -/
  books : l'.books = l.books
  /-- The answers on their way stay there. -/
  pending : l'.pending = l.pending
  /-- The memory performs the access. -/
  perform : ∃ answer, l.memory.perform request = .ok (answer, l'.memory)

omit [Requestors ρ] in
theorem access_of_functional {request : BackendRequest} {s : Recorded (ρ × DelayedMemory)}
    {l : Logged (BackendResponse × Recorded (ρ × DelayedMemory))}
    (h : Backend.accessFunctional request s = .ok l) :
    ∃ l', s.inner.2.access request = .ok l' ∧ l.value.2.inner.2 = l'.value.2 := by
  have hdef : Backend.accessFunctional request s =
      ((s.inner.2.access request).map fun l => l.map fun r => (r.1, (s.inner.1, r.2))).map
        fun l => l.map fun r => (r.1, ⟨r.2, .performed request r.1 :: s.contacts⟩) := rfl
  rw [hdef] at h
  cases haccess : s.inner.2.access request with
  | error a =>
    rw [haccess] at h
    cases h
  | ok l' =>
    rw [haccess] at h
    cases h
    exact ⟨l', rfl, rfl⟩

theorem performs_of_immediate {m m' : System ρ} {now port : Nat} {txn : Transaction}
    {response : Response} (h : Effect m m' (.performed now port txn (.ok response)))
    (hfault : m'.memory.fault = none) :
    m.ledger.Performs m'.ledger (Origin.immediate ⟨port, txn⟩) := by
  have hanswers := h.answers_eq nofun
  cases h with
  | performed ha hs =>
    obtain ⟨stats, ha⟩ := ha
    obtain ⟨s, l, hnotified, hfunctional, hs, -⟩ := hs
    obtain ⟨l', haccess, hinner⟩ := access_of_functional hfunctional
    -- the requestors are told before, and do not touch the memory
    have hbefore : s.inner.2 = m.memory := hnotified.memory_eq
    have hafter : m'.memory = l'.value.2 := by
      rw [← hinner, ← hs]
      rfl
    rw [hafter] at hfault
    have hperform := DelayedMemory.perform_of_access haccess hfault
    rw [hbefore] at hperform
    refine ⟨?_, ?_, l'.value.1, ?_⟩
    · unfold Assembly.ledger
      simp only [ha]
      rfl
    · have hheld : m'.memory.heldBack = m.memory.heldBack := by
        unfold DelayedMemory.heldBack
        rw [hafter, (DelayedMemory.of_perform hperform).2.2.1]
      have hwait : m'.allocator.answers = m.allocator.answers :=
        hanswers.symm.trans (List.append_nil _)
      exact Assembly.pending_congr hwait hheld
    · unfold Assembly.ledger
      simp only [hafter]
      exact hperform

/-- A piece that the systems of this module show, as long as the memory has no
failure and the requestors take what they are handed. -/
structure Moment.Smooth (x : Moment (ρ × DelayedMemory)) : Prop where
  /-- The memory calls the allocator in its own part of a cycle only. -/
  piece : x.Closed ∨ x.IsImmediate
  /-- No completion is refused. -/
  willing : ∀ port addr, x.event.failure? ≠ some (.invariant (.deliveryRefused port addr))
  /-- No access leaves the memory. -/
  healthy : x.after.memory.fault = none

/-- **Every piece is a step of the ledger**, or an access that is performed at
once. -/
theorem step_or_performs {x : Moment (ρ × DelayedMemory)} (hx : x.Genuine)
    (hok : x.event.isBroken = false) (hsmooth : x.Smooth) :
    x.before.ledger.Step x.after.ledger x.event ∨
      ∃ now port txn response, x.event = .performed now port txn (.ok response) ∧
        x.before.ledger.Performs x.after.ledger (Origin.immediate ⟨port, txn⟩) := by
  rcases hsmooth.piece with hclosed | ⟨now, port, txn, result, hevent⟩
  · exact Or.inl (step_of_genuine hx hok hclosed hsmooth.willing)
  · have heffect := effect_of_genuine hx hok
    rw [hevent] at heffect
    cases result with
    | ok response =>
      exact Or.inr
        ⟨now, port, txn, response, hevent, performs_of_immediate heffect hsmooth.healthy⟩
    | error e =>
      -- an access that is refused does nothing
      left
      rw [hevent]
      cases heffect with
      | rejected h =>
        rw [h]
        exact step_of_quiet (.rejected rfl) nofun rfl rfl rfl (.refl _) rfl

/-- **A byte changes only by stores** that the memory takes in a piece. -/
theorem byteAt_of_genuine {x : Moment (ρ × DelayedMemory)} (hx : x.Genuine)
    (hok : x.event.isBroken = false) (hsmooth : x.Smooth) (addr : Nat) :
    x.after.memory.byteAt addr = x.before.memory.byteAt addr ∨
      ∃ r ∈ x.event.requests, r.Puts addr (x.after.memory.byteAt addr) := by
  have heffect := effect_of_genuine hx hok
  rcases step_or_performs hx hok hsmooth with
    hstep | ⟨now, port, txn, response, hevent, hperforms⟩
  · generalize hl : x.after.ledger = l at hstep
    generalize he : x.event = e at hstep
    have hmemory : x.after.memory = l.memory := by
      rw [← hl]
      rfl
    rw [hmemory]
    cases hstep with
    | quiet _ _ _ hagrees _ => exact Or.inl (congrFun hagrees.byteAt_eq addr)
    | folded _ _ _ hagrees _ => exact Or.inl (congrFun hagrees.byteAt_eq addr)
    | answered _ hagrees _ => exact Or.inl (congrFun hagrees.byteAt_eq addr)
    | @sent now granted sent request _ hperform _ =>
      rw [he] at heffect
      obtain ⟨answer, d, hd⟩ := perform_of_sent heffect hsmooth.healthy
      obtain ⟨-, hagrees⟩ := hperform answer d hd
      rw [hagrees.byteAt_eq]
      rcases DelayedMemory.byteAt_of_perform hd addr with hsame | hputs
      · exact Or.inl hsame
      · exact Or.inr ⟨sent, List.mem_singleton_self _, hputs⟩
  · obtain ⟨answer, hperform⟩ := hperforms.perform
    rw [hevent]
    rcases DelayedMemory.byteAt_of_perform hperform addr with hsame | hputs
    · exact Or.inl hsame
    · exact Or.inr ⟨_, List.mem_singleton_self _, hputs⟩

/-! ### Answers on their way -/

/-- The answer to a request in flight.  That of a load shows the memory at the
moment at which it took the load. -/
structure Shows (done : List (Moment (ρ × DelayedMemory))) (lineSize : Nat) (e : Nat × Coalesced)
    (answer : BackendResponse) : Prop where
  /-- The answer has the number of the request. -/
  id : answer.id = e.1
  /-- The answer of a load is what its line held. -/
  shown : e.2.cmd = .read → ∃ w ∈ done, ∃ asked ∈ w.event.sent, asked.id = e.1 ∧
    answer.data = (span e.2.line lineSize).map w.before.memory.byteAt

namespace Shows

variable {done : List (Moment (ρ × DelayedMemory))} {lineSize : Nat} {e : Nat × Coalesced}
  {answer : BackendResponse}

omit [Requestors ρ] in
theorem mono (x : Moment (ρ × DelayedMemory)) (h : Shows done lineSize e answer) :
    Shows (done ++ [x]) lineSize e answer := by
  refine ⟨h.id, fun hread => ?_⟩
  obtain ⟨w, hw, hasked⟩ := h.shown hread
  exact ⟨w, List.mem_append_left _ hw, hasked⟩

omit [Requestors ρ] in
/-- A load that others joined is still answered as it was. -/
theorem joined {id : Nat} {target request merged : Coalesced}
    (h : Shows done lineSize (id, target) answer) (hmerged : target.absorb? request = some merged) :
    Shows done lineSize (id, merged) answer := by
  obtain ⟨-, hcmd, hline⟩ := Coalesced.origins_absorb? hmerged
  refine ⟨h.id, fun hread => ?_⟩
  simp only [hcmd, hline] at hread ⊢
  exact h.shown hread

omit [Requestors ρ] in
/-- A request that goes out in a piece joins those in flight at the end, and its
answer those on their way. -/
theorem all_sent {x : Moment (ρ × DelayedMemory)} {entries : List (Nat × Coalesced)}
    {answers : List BackendResponse} {id : Nat} {request : Coalesced} {d : DelayedMemory}
    (h : List.Forall₂ (Shows done lineSize) entries answers)
    (hsent : request.toBackend id lineSize ∈ x.event.sent)
    (hperform : x.before.memory.perform (request.toBackend id lineSize) = .ok (answer, d)) :
    List.Forall₂ (Shows (done ++ [x]) lineSize) (entries ++ [(id, request)])
      (answers ++ [answer]) := by
  refine List.rel_append (h.imp fun e answer => mono x) (.cons ⟨?_, fun hread => ?_⟩ .nil)
  · rw [(DelayedMemory.of_perform hperform).1, Coalesced.id_toBackend]
  · refine ⟨x, List.mem_append_right _ (List.mem_singleton_self x), _, hsent,
      Coalesced.id_toBackend .., ?_⟩
    rw [Coalesced.toBackend_of_read hread] at hperform
    rw [DelayedMemory.of_perform_read rfl hperform]
    rfl

omit [Requestors ρ] in
/-- A load that others joined is answered as it was, and so are the requests
that nothing joined. -/
theorem all_folded {outstanding : AscMap Coalesced} {answers : List BackendResponse} {id : Nat}
    {target request merged : Coalesced}
    (h : List.Forall₂ (Shows done lineSize) outstanding.entries answers)
    (hget : outstanding.get? id = some target) (hmerged : target.absorb? request = some merged) :
    List.Forall₂ (Shows done lineSize) (outstanding.insert id merged).entries answers := by
  rw [AscMap.entries_insert_of_get? merged hget, List.forall₂_map_left_iff]
  refine forall₂_imp_of_mem h fun e hmem answer hshows => ?_
  split
  · rename_i hid
    obtain rfl := AscMap.eq_of_mem_of_get? hget e hmem hid
    exact hshows.joined hmerged
  · exact hshows

/-- **Every piece keeps the answers on their way tied to the requests in
flight.** -/
theorem all_after {config : AllocatorConfig} {x : Moment (ρ × DelayedMemory)}
    (hkept : Kept (.empty config) (done.map (·.event)) x.before.allocator.books) (hx : x.Genuine)
    (hok : x.event.isBroken = false) (hsmooth : x.Smooth)
    (h : List.Forall₂ (Shows done config.lineSize) x.before.allocator.books.outstanding.entries
      x.before.pending) :
    List.Forall₂ (Shows (done ++ [x]) config.lineSize)
      x.after.allocator.books.outstanding.entries x.after.pending := by
  have heffect := effect_of_genuine hx hok
  have hbooked := heffect.booked
  have hconfig : x.before.allocator.books.config = config := hkept.config_eq
  have hall := h.imp fun e answer => mono x
  rcases step_or_performs hx hok hsmooth with
    hstep | ⟨now, port, txn, response, hevent, hperforms⟩
  · generalize he : x.event = event at hstep
    rw [he] at hbooked heffect
    cases hstep with
    | quiet hserved hdrained hpending _ _ =>
      obtain ⟨hout, -⟩ := hbooked.of_idle hserved hdrained
      have hpending : x.after.pending = x.before.pending := hpending
      rw [hout, hpending]
      exact hall
    | @sent now granted sent request _ hperform _ =>
      obtain ⟨rfl, -, hout, -⟩ := hbooked.of_sent
      obtain ⟨answer, d, hd⟩ := perform_of_sent heffect hsmooth.healthy
      obtain ⟨hpending, -⟩ := hperform answer d hd
      have hpending : x.after.pending = x.before.pending ++ [answer] := hpending
      rw [hout, AscMap.entries_insert_of_lt request fun k c hk => (hkept.accounted hk).lt, hpending]
      rw [hconfig] at he hd
      refine all_sent h ?_ hd
      rw [he]
      exact List.mem_singleton_self _
    | @folded now granted id request _ _ hpending _ _ =>
      obtain ⟨target, merged, hget, hmerged, -, hout, -⟩ := hbooked.of_folded
      have hpending : x.after.pending = x.before.pending := hpending
      rw [hout, hpending]
      exact all_folded hall hget hmerged
    | @answered now response result hpending _ _ =>
      have hbooks := hbooked.of_answered
      have hpending : x.before.pending = response :: x.after.pending := hpending
      rw [hpending, List.forall₂_cons_right_iff] at hall
      obtain ⟨⟨id, request⟩, rest, hhead, hrest, hentries⟩ := hall
      obtain rfl : response.id = id := hhead.id
      rw [hbooks, AscMap.entries_erase_of_cons hentries]
      exact hrest
  · have hbooks : x.after.allocator.books = x.before.allocator.books := hperforms.books
    have hpending : x.after.pending = x.before.pending := hperforms.pending
    rw [hbooks, hpending]
    exact hall

end Shows

end Pieces

/-! ### Runs -/

section Runs

variable {ρ : Type} [Requestors ρ]

variable {m : System ρ} {ms : List (Moment (ρ × DelayedMemory))}

/-- **A byte changes only by stores**: in a run, it stays or was put there by a
request that the memory took. -/
theorem byteAt_of_linked (h : Linked m ms) (hok : Unbroken ms) (hsmooth : ∀ x ∈ ms, x.Smooth)
    (addr : Nat) : (endOf m ms).memory.byteAt addr = m.memory.byteAt addr ∨
      ∃ r ∈ requestsIn (ms.map (·.event)), r.Puts addr ((endOf m ms).memory.byteAt addr) := by
  refine Linked.induct (P := fun (ms : List (Moment (ρ × DelayedMemory))) (m' : System ρ) =>
    m'.memory.byteAt addr = m.memory.byteAt addr ∨
      ∃ r ∈ requestsIn (ms.map (·.event)), r.Puts addr (m'.memory.byteAt addr))
        (Or.inl rfl) ?_ h hok
    hsmooth
  intro pre x ih hx hokx hsmooth
  unfold requestsIn at ih ⊢
  rw [List.map_append, List.flatMap_append, List.map_singleton, List.flatMap_singleton]
  rcases byteAt_of_genuine hx hokx hsmooth addr with hsame | ⟨r, hr, hputs⟩
  · rw [hsame]
    rcases ih with hold | ⟨r, hr, hputs⟩
    · exact Or.inl hold
    · exact Or.inr ⟨r, List.mem_append_left _ hr, hputs⟩
  · exact Or.inr ⟨r, List.mem_append_right _ hr, hputs⟩

/-- **In a run, the answers on their way are those to the requests in flight**,
and those of loads show the memory at the moments at which it took them. -/
theorem Linked.shows {config : AllocatorConfig} (h : Linked m ms) (hok : Unbroken ms)
    (hsmooth : ∀ x ∈ ms, x.Smooth) (hbooks : m.allocator.books = .empty config)
    (hpending : m.pending = []) :
    List.Forall₂ (Shows ms config.lineSize) (endOf m ms).allocator.books.outstanding.entries
      (endOf m ms).pending := by
  have hall :=
    Linked.induct (P := fun (pre : List (Moment (ρ × DelayedMemory))) (m' : System ρ) =>
    Kept (.empty config) (pre.map (·.event)) m'.allocator.books ∧
      List.Forall₂ (Shows pre config.lineSize) m'.allocator.books.outstanding.entries m'.pending)
    ?_ ?_ h hok hsmooth
  · exact hall.2
  · rw [hbooks, hpending]
    exact ⟨.start, .nil⟩
  · rintro pre x ⟨hkept, hshows⟩ hx hokx hsmooth
    rw [List.map_append, List.map_singleton]
    exact ⟨hkept.step (effect_of_genuine hx hokx).booked,
      Shows.all_after hkept hx hokx hsmooth hshows⟩

/-- Where loads never share an access, what leaves its queue is served by a new
request. -/
theorem Booked.id_of_served {b b' : Books} {e : Event} (h : Booked b e b') (hroutes : b.Routes e)
    (hoff : b.config.enableCoalescing ≠ true) {id : Nat} {o : Origin}
    (ho : (id, o) ∈ e.served) :
    id = b.nextId := by
  cases h with
  | accepted => cases ho
  | answered => cases ho
  | sent =>
    obtain ⟨o', -, heq⟩ := List.mem_map.mp ho
    cases heq
    exact Coalesced.id_toBackend _ _ _
  | folded => exact absurd hroutes.1 hoff
  | quiet hquiet =>
    rw [(Event.of_isQuiet hquiet).2.1] at ho
    cases ho

/-- **Which request serves a load**: one of a given number or a later one, if
and only if the loads in flight with smaller numbers are fenced, or loads never
share an access. -/
theorem le_of_fenced_iff {x : Moment (ρ × DelayedMemory)} (hx : x.Genuine) {id k : Nat}
    {o : Origin} (ho : (id, o) ∈ x.event.served) (hread : o.txn.cmd = .read)
    (hk : k ≤ x.before.allocator.nextId) :
    (x.before.allocator.config.enableCoalescing = true →
      x.before.allocator.Fenced (x.before.allocator.config.lineOf o.txn.addr) k) ↔ k ≤ id := by
  have hok := Event.isBroken_of_mem_served ho
  have heffect := effect_of_genuine hx hok
  by_cases hon : x.before.allocator.config.enableCoalescing = true
  · rw [← heffect.fenced_iff hon ho hread hk]
    exact ⟨fun h => h hon, fun h _ => h⟩
  · have hid := heffect.booked.id_of_served (routes_of_genuine hx hok) hon ho
    exact iff_of_true (fun h => absurd h hon) (hid ▸ hk)

/-- The completions that an answer hands out, if one of them is for a load: they
carry the bytes that the memory showed when it took the request. -/
theorem loaded_of_drained {config : AllocatorConfig} (h : Linked m ms) (hok : Unbroken ms)
    (hsmooth : ∀ x ∈ ms, x.Smooth) (hbooks : m.allocator.books = .empty config)
    (hpending : m.pending = []) {z : Moment (ρ × DelayedMemory)} (hz : z.Genuine)
    (hbefore : z.before = endOf m ms) {now : Nat} {answer : BackendResponse}
    (hevent : z.event = .answered now answer (.ok ())) {o : Origin}
    (ho : o ∈ servedUnder answer.id (ms.map (·.event))) (hread : o.txn.cmd = .read) :
    ∃ w ∈ ms, ∃ asked ∈ w.event.sent, asked.id = answer.id ∧
      z.after.surroundings.deliveries = z.before.surroundings.deliveries ++
        (servedUnder answer.id (ms.map (·.event))).map (·.loaded w.before.memory.byteAt) := by
  have hkept := h.kept hok
  rw [hbooks, ← hbefore] at hkept
  have hshows : List.Forall₂ (Shows ms config.lineSize)
      (endOf m ms).allocator.books.outstanding.entries (endOf m ms).pending :=
    h.shows hok hsmooth hbooks hpending
  rw [← hbefore] at hshows
  have heffect := effect_of_genuine hz (by rw [hevent]; rfl)
  rw [hevent] at heffect
  obtain ⟨⟨waiting, hwaiting⟩, request, hrequest, hcmd, hloaded⟩ :=
    hkept.loads_of_answered heffect ho hread
  -- the answer is the oldest on its way, so it belongs to the oldest request in flight
  have holdest : z.before.pending = answer :: (waiting ++ z.before.memory.heldBack) := by
    unfold Assembly.pending
    rw [hwaiting]
    rfl
  rw [holdest, List.forall₂_cons_right_iff] at hshows
  obtain ⟨⟨id, oldest⟩, rest, hshown, -, hentries⟩ := hshows
  obtain rfl : answer.id = id := hshown.id
  have hsame : z.before.allocator.books.outstanding.get? answer.id = some oldest := by
    rw [← AscMap.mem_entries_iff, hentries]
    exact List.mem_cons_self
  rw [hrequest] at hsame
  cases hsame
  obtain ⟨w, hw, asked, hasked, hid, hdata⟩ := hshown.shown hcmd
  exact ⟨w, hw, asked, hasked, hid, hloaded _ hdata⟩

/-- **The bytes of a store at once stay until other stores replace them**, at
the end of a run after it and at every piece of the run. -/
theorem puts_of_immediate {o : Origin} {l : Ledger} (hperforms : l.Performs m.ledger o.immediate)
    (hstore : o.txn.cmd = .write ∨ o.txn.cmd = .swap) (h : Linked m ms) (hok : Unbroken ms)
    (hsmooth : ∀ x ∈ ms, x.Smooth) :
    (∀ addr, o.txn.addr ≤ addr → addr < o.txn.addr + o.txn.data.length →
      ∃ s ∈ o.immediate :: requestsIn (ms.map (·.event)),
        s.Puts addr ((endOf m ms).memory.byteAt addr)) ∧
    ∀ w ∈ ms, ∀ addr, o.txn.addr ≤ addr → addr < o.txn.addr + o.txn.data.length →
      ∃ s ∈ o.immediate :: requestsIn (ms.map (·.event)),
      s.Puts addr (w.before.memory.byteAt addr) := by
  -- at the end of a part of the run
  have hpart : ∀ {part : List (Moment (ρ × DelayedMemory))}, Linked m part → Unbroken part →
      (∀ x ∈ part, x ∈ ms) → ∀ addr, o.txn.addr ≤ addr →
      addr < o.txn.addr + o.txn.data.length →
      ∃ s ∈ o.immediate :: requestsIn (ms.map (·.event)),
        s.Puts addr ((endOf m part).memory.byteAt addr) := by
    intro part hpart hokpart hsub addr hle hlt
    obtain ⟨answer, hperform⟩ := hperforms.perform
    rcases byteAt_of_linked hpart hokpart (fun x hx => hsmooth x (hsub x hx)) addr with
      hsame | ⟨s, hs, hputs⟩
    · refine ⟨o.immediate, List.mem_cons_self, ?_⟩
      rw [hsame]
      exact DelayedMemory.puts_of_perform hperform hstore hle hlt
    · refine ⟨s, List.mem_cons_of_mem _ ?_, hputs⟩
      obtain ⟨e, he, hs⟩ := List.mem_flatMap.mp hs
      obtain ⟨x, hx, rfl⟩ := List.mem_map.mp he
      exact List.mem_flatMap.mpr ⟨x.event, List.mem_map_of_mem (hsub x hx), hs⟩
  refine ⟨hpart h hok fun _ hx => hx, fun w hw => ?_⟩
  obtain ⟨earlier, later, rfl⟩ := List.append_of_mem hw
  obtain ⟨hearlier, hokearlier, hbefore, -, -⟩ := h.split_cons
  rw [hbefore]
  exact hpart hearlier hokearlier fun x hx => List.mem_append_left _ hx

/-- **Which bytes a load gets after a store at once.**  Let the memory perform a
store at once, and after it let a load of its line leave its queue, which is
answered later on.  All loads that share its answer get the bytes that the
memory showed when it took their request.  If the loads of the line that were in
flight with smaller numbers than those still to come were fenced when the load
left its queue, or if loads never share an access, that was after the store, and
the bytes of the store are still there or those of later stores.  If not, it was
before. -/
theorem load_sees_immediate_store {config : AllocatorConfig} {a : Allocator}
    (hnew : Allocator.new config = .ok a) (r : ρ) {d : DelayedMemory} (hidle : d.isIdle = true)
    (j : Journal) {moves : List Move} {pre mid post rest : List (Moment (ρ × DelayedMemory))}
    {x y z : Moment (ρ × DelayedMemory)}
    (hrun : playMoves moves ⟨a, .start (r, d), j⟩ =
      pre ++ x :: (mid ++ y :: (post ++ z :: rest)))
    (hhealthy : ∀ v ∈ playMoves moves ⟨a, .start (r, d), j⟩, v.after.memory.fault = none)
    (hwilling : ∀ v ∈ playMoves moves ⟨a, .start (r, d), j⟩, ∀ port addr,
      v.event.failure? ≠ some (.invariant (.deliveryRefused port addr)))
    {now port : Nat} {txn : Transaction} {response : Response}
    (hx : x.event = .performed now port txn (.ok response))
    (hstore : txn.cmd = .write ∨ txn.cmd = .swap)
    {id : Nat} {o : Origin} (hy : (id, o) ∈ y.event.served) (hread : o.txn.cmd = .read)
    (hline : config.lineOf o.txn.addr = config.lineOf txn.addr)
    {later : Nat} {answer : BackendResponse} (hz : z.event = .answered later answer (.ok ()))
    (hid : answer.id = id) :
    ∃ w asked, asked ∈ w.event.sent ∧ asked.id = id ∧
      (w ∈ mid ++ [y] ∧
          (config.enableCoalescing = true →
            y.before.allocator.Fenced (config.lineOf txn.addr) x.before.allocator.nextId) ∧
          (∀ addr, txn.addr ≤ addr → addr < txn.addr + txn.data.length →
            ∃ s ∈ Origin.immediate ⟨port, txn⟩ :: requestsIn (mid.map (·.event)),
              s.Puts addr (w.before.memory.byteAt addr)) ∨
        w ∈ pre ∧ config.enableCoalescing = true ∧
          ¬ y.before.allocator.Fenced (config.lineOf txn.addr) x.before.allocator.nextId) ∧
      z.after.surroundings.deliveries = z.before.surroundings.deliveries ++
        (servedUnder id ((pre ++ x :: (mid ++ y :: post)).map (·.event))).map
          (·.loaded w.before.memory.byteAt) := by
  subst hid
  have hlinks := linked_playMoves moves ⟨a, .start (r, d), j⟩
  have hsmooth : ∀ v ∈ playMoves moves ⟨a, .start (r, d), j⟩, v.Smooth :=
    fun v hv => ⟨closed_or_immediate hv, hwilling v hv, hhealthy v hv⟩
  rw [hrun] at hlinks hsmooth
  have hrunz : pre ++ x :: (mid ++ y :: (post ++ z :: rest)) =
      (pre ++ x :: (mid ++ y :: post)) ++ z :: rest := by
    simp only [List.append_assoc, List.cons_append]
  have hlinksz := hlinks
  rw [hrunz] at hlinksz
  obtain ⟨hpre, hokpre, hbefore, hgenx, hlinks⟩ := hlinks.split_cons
  obtain ⟨hmid, hokmid, hbeforey, hgeny, hlinks⟩ := hlinks.split_cons
  obtain ⟨hpost, hokpost, -, -, -⟩ := hlinks.split_cons
  obtain ⟨hall, hokall, hbeforez, hgenz, -⟩ := hlinksz.split_cons
  have hbooks : (⟨a, .start (r, d), j⟩ : System ρ).allocator.books = .empty config :=
    Allocator.books_new hnew
  have hpending : (⟨a, .start (r, d), j⟩ : System ρ).pending = [] := by
    rw [(Allocator.eq_of_new hnew).2]
    exact DelayedMemory.heldBack_of_isIdle hidle
  -- the store moves no transaction
  have heffectx := effect_of_genuine hgenx (by rw [hx]; rfl)
  have hsmoothx : x.Smooth := hsmooth x (by simp)
  rw [hx] at heffectx
  have hperforms := performs_of_immediate heffectx hsmoothx.healthy
  have hbooksx : x.after.allocator.books = x.before.allocator.books := hperforms.books
  have heffecty := effect_of_genuine hgeny (Event.isBroken_of_mem_served hy)
  -- the books between the pieces
  have hkept := hpre.kept hokpre
  rw [hbooks, ← hbefore] at hkept
  have hkeptx : Kept (.empty config) (pre.map (·.event)) x.after.allocator.books := by
    rw [hbooksx]
    exact hkept
  have hkeptmid := hmid.kept hokmid
  rw [← hbeforey] at hkeptmid
  have hkepty : Kept y.before.allocator.books [y.event] y.after.allocator.books :=
    Kept.start.step heffecty.booked
  have hnextx : x.after.allocator.nextId = x.before.allocator.nextId :=
    congrArg Books.nextId hbooksx
  have hlemid : x.before.allocator.nextId ≤ y.before.allocator.nextId :=
    hnextx ▸ hkeptmid.nextId_le
  have hconfig : y.before.allocator.config = config := (hkeptx.trans hkeptmid).config_eq
  have hfenced := le_of_fenced_iff hgeny hy hread hlemid
  rw [hconfig, hline] at hfenced
  have hserved : answer.id < y.after.allocator.nextId :=
    ((hkeptx.trans hkeptmid).trans hkepty).lt_of_mem_servedUnder (mem_servedUnder.mpr (by
      rw [servedIn_append, servedIn_singleton]
      exact List.mem_append_right _ hy))
  -- where the request went out
  have hunder : o ∈ servedUnder answer.id ((pre ++ x :: (mid ++ y :: post)).map (·.event)) :=
    mem_servedUnder.mpr (List.mem_flatMap.mpr ⟨y.event, by simp, hy⟩)
  obtain ⟨w, hw, asked, hasked, hid, hdeliveries⟩ := loaded_of_drained hall hokall
    (fun v hv => hsmooth v (hrunz ▸ List.mem_append_left _ hv)) hbooks hpending hgenz
      hbeforez hz hunder
    hread
  refine ⟨w, asked, hasked, hid, ?_, hdeliveries⟩
  rcases sides_of_sent hkept hkeptmid heffecty.booked (hpost.kept hokpost) hw hasked
    (hid ▸ hserved) with
    ⟨hw, hold⟩ | rfl | ⟨hw, hyoung⟩
  · rw [hid] at hold
    have hnot := mt hfenced.mp (Nat.not_le_of_lt hold)
    rw [Classical.not_imp] at hnot
    exact Or.inr ⟨hw, hnot⟩
  · -- the store sends nothing
    rw [hx] at hasked
    cases hasked
  · rw [hid, hnextx] at hyoung
    refine Or.inl ⟨hw, hfenced.mpr hyoung, ?_⟩
    have hsmoothmid : ∀ v ∈ mid, v.Smooth := fun v hv => hsmooth v (by simp [hv])
    have hbytes := puts_of_immediate hperforms hstore hmid hokmid hsmoothmid
    rcases List.mem_append.mp hw with hw | hw
    · exact hbytes.2 w hw
    · rw [List.mem_singleton.mp hw, hbeforey]
      exact hbytes.1

end Runs

/-- A load goes out, and a store to its line after it.  Then another store is
performed at once, and one more load of the line is submitted. -/
def fencedLoad : List Move :=
  [.act (.submit 0 0 (.load .read 1 64 4)), .act (.tick 0),
    .act (.submit 1 1 (.store .write 2 64 [9, 9, 9, 9])), .act (.tick 1),
    .immediate 2 1 (.store .write 3 64 [1, 2]), .act (.submit 3 2 (.load .read 4 64 4)),
    .act (.tick 3),
    .act (.memoryTick 12), .act (.tick 12), .act (.memoryTick 13), .act (.tick 13),
    .act (.memoryTick 14), .act (.tick 14)]

/-- The late load goes out on its own, and sees the store at once. -/
theorem load_sees_immediate_store_fencedLoad : ∃ w z : Moment (Lanes × DelayedMemory),
    (∃ asked ∈ w.event.sent, asked.id = 2) ∧
      z.after.surroundings.deliveries = z.before.surroundings.deliveries ++
        [Origin.loaded ⟨2, .load .read 4 64 4⟩ w.before.memory.byteAt] ∧
      ∀ addr, 64 ≤ addr → addr < 66 →
        (Origin.immediate ⟨1, .store .write 3 64 [1, 2]⟩).Puts addr
          (w.before.memory.byteAt addr) := by
  obtain ⟨x, hx⟩ : ∃ x, (playMoves fencedLoad joinedLoadsStart)[8]? = some x :=
    Option.isSome_iff_exists.mp (by decide +kernel)
  obtain ⟨y, hy⟩ : ∃ y, ((playMoves fencedLoad joinedLoadsStart).drop 9)[2]? = some y :=
    Option.isSome_iff_exists.mp (by decide +kernel)
  obtain ⟨z, hz⟩ : ∃ z,
      (((playMoves fencedLoad joinedLoadsStart).drop 9).drop 3)[14]? = some z :=
    Option.isSome_iff_exists.mp (by decide +kernel)
  have hperformed : ∀ x ∈ (playMoves fencedLoad joinedLoadsStart)[8]?, x.event =
      .performed 2 1 (.store .write 3 64 [1, 2]) (.ok ⟨3, .write, 64, [], true⟩) := by
        decide +kernel
  have hserved : ∀ y ∈ ((playMoves fencedLoad joinedLoadsStart).drop 9)[2]?,
      (2, ⟨2, .load .read 4 64 4⟩) ∈ y.event.served := by decide +kernel
  have hanswered : ∀ z ∈ (((playMoves fencedLoad joinedLoadsStart).drop 9).drop 3)[14]?,
      z.event = .answered 14 ⟨2, [1, 2, 9, 9] ++ List.replicate 60 0, true⟩ (.ok ()) := by
    decide +kernel
  have hhealthy : ∀ v ∈ playMoves fencedLoad joinedLoadsStart,
      v.after.memory.fault = none := by decide +kernel
  have hfine : ∀ v ∈ playMoves fencedLoad joinedLoadsStart, v.event.failure? = none := by
    decide +kernel
  have hnew : Allocator.new { numPorts := 3, requestLatency := 0, enableCoalescing := true } =
      .ok joinedLoadsStart.allocator := by rfl
  have hrun := eq_of_piece hx
  rw [eq_of_piece hy, eq_of_piece hz] at hrun
  obtain ⟨w, asked, hasked, hid, hwhen, hdeliveries⟩ :=
    load_sees_immediate_store hnew (Lanes.plain 3)
    (d := twoLines) rfl (.start .warn) hrun hhealthy
    (fun v hv port addr hfailed => by
      rw [hfine v hv] at hfailed
      cases hfailed)
    (hperformed x hx) (Or.inl rfl) (hserved y hy) (by decide) (by decide) (hanswered z hz) rfl
  have halone : servedUnder 2 (((playMoves fencedLoad joinedLoadsStart).take 26).map (·.event)) =
      [⟨2, .load .read 4 64 4⟩] := by decide +kernel
  have hold : ∀ w ∈ (playMoves fencedLoad joinedLoadsStart).take 8, ∀ asked ∈ w.event.sent,
      asked.id ≠ 2 := by decide +kernel
  have hbetween : requestsIn ((((playMoves fencedLoad joinedLoadsStart).drop 9).take 2).map
      (·.event)) = [] := by decide +kernel
  rw [← take_of_piece hy, ← take_of_piece hx, halone] at hdeliveries
  refine ⟨w, z, ⟨asked, hasked, hid⟩, hdeliveries, fun addr hle hlt => ?_⟩
  rcases hwhen with ⟨-, -, hputs⟩ | ⟨hw, -⟩
  · obtain ⟨s, hs, hputs⟩ := hputs addr hle hlt
    rw [hbetween, List.mem_singleton] at hs
    rwa [hs] at hputs
  · exact absurd hid (hold w hw asked hasked)

/-- A load goes out, and a store to its line is performed at once.  Then one
more load of the line is submitted, and joins the first. -/
def hiddenStore : List Move :=
  [.act (.submit 0 0 (.load .read 1 64 4)), .act (.tick 0),
    .immediate 1 1 (.store .write 2 64 [1, 2, 3, 4]),
    .act (.submit 2 2 (.load .read 3 64 4)), .act (.tick 2), .act (.memoryTick 10), .act (.tick 11)]

/-- **A store at once need not be seen.**  A load may be submitted after a store
at once returned, and still get bytes that neither this store nor a later one
put there. -/
theorem immediate_store_hidden_from_load : ¬ ∀ (config : AllocatorConfig) (a : Allocator),
    Allocator.new config = .ok a →
    ∀ (r : Lanes) (d : DelayedMemory) (j : Journal) (moves : List Move), d.isIdle = true →
    ∀ ms, ms = playMoves moves ⟨a, .start (r, d), j⟩ →
    (∀ v ∈ ms, v.after.memory.fault = none) →
    (∀ v ∈ ms, v.event.failure? = none) →
    -- a store is performed at once, and a load is submitted, served and answered
    ∀ (i₁ i₂ i₃ i₄ : Nat) (x u y z : Moment (Lanes × DelayedMemory)),
    i₁ < i₂ → i₂ < i₃ → i₃ < i₄ → ms[i₁]? = some x → ms[i₂]? = some u →
    ms[i₃]? = some y →
    ms[i₄]? = some z →
    ∀ now port txn response, x.event = .performed now port txn (.ok response) →
    txn.cmd = .write ∨ txn.cmd = .swap →
    ∀ o, u.event.accepted = [o] → o.txn.cmd = .read → ∀ id, (id, o) ∈ y.event.served →
    ∀ now answer, z.event = .answered now answer (.ok ()) → answer.id = id →
    -- the load and the store have a byte in common
    ∀ addr, txn.addr ≤ addr → addr < txn.addr + txn.data.length → o.txn.addr ≤ addr →
    addr < o.txn.addr + o.txn.size →
    ∃ c ∈ z.after.surroundings.deliveries, c.1 = o.port ∧ c.2.tag = o.txn.tag ∧
      ∃ b ∈ c.2.data[addr - o.txn.addr]?,
        ∃ s ∈ Origin.immediate ⟨port, txn⟩ ::
          requestsIn ((ms.drop (i₁ + 1)).map (·.event)),
          s.Puts addr b := by
  intro hclaim
  obtain ⟨x, hx⟩ : ∃ x, (playMoves hiddenStore joinedLoadsStart)[4]? = some x :=
    Option.isSome_iff_exists.mp (by decide +kernel)
  obtain ⟨u, hu⟩ : ∃ u, (playMoves hiddenStore joinedLoadsStart)[5]? = some u :=
    Option.isSome_iff_exists.mp (by decide +kernel)
  obtain ⟨y, hy⟩ : ∃ y, (playMoves hiddenStore joinedLoadsStart)[7]? = some y :=
    Option.isSome_iff_exists.mp (by decide +kernel)
  obtain ⟨z, hz⟩ : ∃ z, (playMoves hiddenStore joinedLoadsStart)[11]? = some z :=
    Option.isSome_iff_exists.mp (by decide +kernel)
  have hperformed : ∀ x ∈ (playMoves hiddenStore joinedLoadsStart)[4]?, x.event =
      .performed 1 1 (.store .write 2 64 [1, 2, 3, 4]) (.ok ⟨2, .write, 64, [], true⟩) := by
    decide +kernel
  have haccepted : ∀ u ∈ (playMoves hiddenStore joinedLoadsStart)[5]?,
      u.event.accepted = [⟨2, .load .read 3 64 4⟩] := by decide +kernel
  have hserved : ∀ y ∈ (playMoves hiddenStore joinedLoadsStart)[7]?,
      (0, ⟨2, .load .read 3 64 4⟩) ∈ y.event.served := by decide +kernel
  have hanswered : ∀ z ∈ (playMoves hiddenStore joinedLoadsStart)[11]?,
      z.event = .answered 11 ⟨0, List.replicate 64 0, true⟩ (.ok ()) := by decide +kernel
  have hstale : ∀ z ∈ (playMoves hiddenStore joinedLoadsStart)[11]?,
      ∀ c ∈ z.after.surroundings.deliveries, c.2.tag = 3 → c.2.data[0]? = some 0 := by
    decide +kernel
  have hlater : requestsIn (((playMoves hiddenStore joinedLoadsStart).drop 5).map (·.event)) =
      [] := by
    decide +kernel
  have hnew : Allocator.new { numPorts := 3, requestLatency := 0, enableCoalescing := true } =
      .ok joinedLoadsStart.allocator := by rfl
  obtain ⟨c, hc, -, htag, b, hb, s, hs, -, -, hputs⟩ := hclaim _ _ hnew (Lanes.plain 3) twoLines
    (.start .warn) hiddenStore rfl _ rfl (by decide +kernel) (by decide +kernel) 4 5 7 11 x u y z
    (by decide) (by decide) (by decide) hx hu hy hz _ _ _ _ (hperformed x hx) (Or.inl rfl) _
    (haccepted u hu) (by decide) _ (hserved y hy) _ _ (hanswered z hz) rfl 64
      (by decide) (by decide)
    (by decide) (by decide)
  -- the byte is the old one, and the only store puts another
  have hzero : (some 0 : Option UInt8) = some b := (hstale z hz c hc htag).symm.trans hb
  rw [show playMoves hiddenStore ⟨joinedLoadsStart.allocator, .start (Lanes.plain 3, twoLines),
    .start .warn⟩ = playMoves hiddenStore joinedLoadsStart from rfl, hlater,
    List.mem_singleton] at hs
  rw [hs] at hputs
  have hone : (some 1 : Option UInt8) = some b := hputs
  rw [← hone] at hzero
  cases hzero

end MemPort
