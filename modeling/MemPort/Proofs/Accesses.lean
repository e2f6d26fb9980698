import MemPort.DelayedMemory
import MemPort.Proofs.Answers
import MemPort.Proofs.Lines

/-!
# Accesses to a memory with a latency

An access depends on the bytes and the reservations of a memory, and changes
nothing else of it but a counter.  An access that keeps to the memory succeeds,
and one that is accepted is answered at the end of the line of answers that are
held back.

## Main definitions

* `DelayedMemory.Agrees` — two memories have the same bytes and reservations.
* `DelayedMemory.serially` — transactions performed one after the other, each
  on its own.
* `DelayedMemory.Performed` — what an access comes to, command by command.
* `DelayedMemory.heldBack` — the answers that are held back.

## Main results

* `DelayedMemory.perform_of_agrees` — memories that agree perform accesses
  alike.
* `DelayedMemory.exists_perform` — an access that keeps to the memory
  succeeds.
* `DelayedMemory.serially_reads` — loads one after the other get what one load
  of their line gets.
* `DelayedMemory.accept_accepted` — an access is performed when it is
  accepted.
* `DelayedMemory.of_tick` — answers go out in the order in which they came in.

## References

`SPEC_FULL.md`, section 10.7: an access is performed when it is accepted.
-/

namespace MemPort

/-- A transaction as an access of its own. -/
def Origin.alone (o : Origin) (id : Nat) : BackendRequest :=
  ⟨id, o.port, o.txn.cmd, o.txn.addr, o.txn.size, o.txn.data⟩

theorem Relays.trans {a b c : Allocator} (h : Relays a b) (h' : Relays b c) : Relays a c := by
  induction h' with
  | refl => exact h
  | received now response _ ih => exact .received now response ih
  | resumed _ ih => exact .resumed ih

namespace DelayedMemory

/-- Two memories that have the same bytes and reservations. -/
structure Agrees (d e : DelayedMemory) : Prop where
  /-- They have the same settings. -/
  config : e.config = d.config
  /-- They have the same bytes. -/
  memory : e.memory = d.memory
  /-- They have the same reservations. -/
  reservations : e.reservations = d.reservations

/-- The answers that are held back, oldest first. -/
def heldBack (d : DelayedMemory) : List BackendResponse := d.inflight.entries.map (·.payload)

/-- Perform transactions one after the other, each on its own, and complete
them.  The numbers are those of the requests that serve them. -/
def serially (d : DelayedMemory) :
    List (Nat × Origin) → Except MemoryFault (List (Nat × Nat × Response) × DelayedMemory)
  | [] => .ok ([], d)
  | (id, o) :: rest =>
      (d.perform (o.alone id)).bind fun r => (r.2.serially rest).map fun s =>
        ((id, o.port, o.txn.completion r.1.data r.1.success) :: s.1, s.2)

variable {d d' e : DelayedMemory} {request : BackendRequest} {answer : BackendResponse}

namespace Agrees

theorem refl (d : DelayedMemory) : d.Agrees d := ⟨rfl, rfl, rfl⟩

theorem trans (h : d.Agrees e) (h' : e.Agrees d') : d.Agrees d' :=
  ⟨h'.config.trans h.config, h'.memory.trans h.memory, h'.reservations.trans h.reservations⟩

theorem reservation?_eq (h : d.Agrees e) (addr : Nat) :
    e.reservation? addr = d.reservation? addr := by
  unfold reservation? granule
  rw [h.config, h.reservations]

end Agrees

/-! ### What an access does -/

theorem storeFor_eq_ok (h : d.storeFor request = .ok d') :
    d'.config = d.config ∧ d'.inflight = d.inflight ∧
      d'.memory =
        { d.memory with contents := d.memory.contents.store request.addr request.data } := by
  obtain ⟨memory, hwrite, rfl⟩ := exists_of_map_eq_ok h
  obtain ⟨_, -, rfl⟩ := exists_of_map_eq_ok hwrite
  exact ⟨rfl, rfl, rfl⟩

theorem storeFor_of_agrees (h : d.Agrees e) (hd : d.storeFor request = .ok d') :
    ∃ e', e.storeFor request = .ok e' ∧ d'.Agrees e' := by
  obtain ⟨memory, hwrite, rfl⟩ := exists_of_map_eq_ok hd
  unfold storeFor
  rw [h.memory, hwrite]
  refine ⟨_, rfl, h.config, rfl, ?_⟩
  unfold clearReservations granule
  simp only [h.config, h.reservations]

/-- What an access comes to, with its answer. -/
inductive Performed (d : DelayedMemory) (request : BackendRequest) :
    BackendResponse → DelayedMemory → Prop
  /-- A load gets the bytes that are there. -/
  | loaded {data : Bytes} (hcmd : request.cmd = .read)
      (hread : d.memory.read request.addr request.size = .ok data) :
      Performed d request ⟨request.id, data, true⟩ d
  /-- A load-locked also reserves their granule. -/
  | reserved {data : Bytes} (hcmd : request.cmd = .loadLocked)
      (hread : d.memory.read request.addr request.size = .ok data) :
      Performed d request ⟨request.id, data, true⟩ (d.reserve request.addr request.origin)
  /-- A store takes effect. -/
  | stored {d' : DelayedMemory} (hcmd : request.cmd = .write)
      (hstore : d.storeFor request = .ok d') : Performed d request ⟨request.id, [], true⟩ d'
  /-- A swap takes effect, and gets the bytes that were there. -/
  | swapped {old : Bytes} {d' : DelayedMemory} (hcmd : request.cmd = .swap)
      (hread : d.memory.read request.addr request.data.length = .ok old)
      (hstore : d.storeFor request = .ok d') : Performed d request ⟨request.id, old, true⟩ d'
  /-- A store-conditional takes effect under a reservation. -/
  | kept {d' : DelayedMemory} (hcmd : request.cmd = .storeCond)
      (hheld : d.reservation? request.addr = some request.origin)
      (hstore : d.storeFor request = .ok d') : Performed d request ⟨request.id, [], true⟩ d'
  /-- A store-conditional without one only clears reservations. -/
  | lost (hcmd : request.cmd = .storeCond)
      (hfree : d.reservation? request.addr ≠ some request.origin) :
      Performed d request ⟨request.id, [], false⟩
        ((d.count fun c => { c with scFailures := c.scFailures + 1 }).clearReservations
          request.addr request.size)

theorem performed_of_perform (h : d.perform request = .ok (answer, d')) :
    Performed d request answer d' := by
  unfold perform at h
  cases hcmd : request.cmd with
  | read =>
    rw [hcmd] at h
    obtain ⟨data, hread, heq⟩ := exists_of_map_eq_ok h
    cases heq
    exact .loaded hcmd hread
  | loadLocked =>
    rw [hcmd] at h
    obtain ⟨data, hread, heq⟩ := exists_of_map_eq_ok h
    cases heq
    exact .reserved hcmd hread
  | write =>
    rw [hcmd] at h
    obtain ⟨d₁, hstore, heq⟩ := exists_of_map_eq_ok h
    cases heq
    exact .stored hcmd hstore
  | swap =>
    rw [hcmd] at h
    obtain ⟨old, hread, h⟩ := exists_of_bind_eq_ok h
    obtain ⟨d₁, hstore, heq⟩ := exists_of_bind_eq_ok h
    cases heq
    exact .swapped hcmd hread hstore
  | storeCond =>
    rw [hcmd] at h
    simp only at h
    split at h
    · rename_i hheld
      obtain ⟨d₁, hstore, heq⟩ := exists_of_map_eq_ok h
      cases heq
      exact .kept hcmd hheld hstore
    · rename_i hfree
      cases h
      exact .lost hcmd hfree

theorem Performed.perform_eq (h : Performed d request answer d') :
    d.perform request = .ok (answer, d') := by
  unfold perform
  cases h with
  | loaded hcmd hread =>
    rw [hcmd, hread]
    rfl
  | reserved hcmd hread =>
    rw [hcmd, hread]
    rfl
  | stored hcmd hstore =>
    rw [hcmd, hstore]
    rfl
  | swapped hcmd hread hstore =>
    rw [hcmd, hread, hstore]
    rfl
  | kept hcmd hheld hstore =>
    rw [hcmd]
    simp only
    rw [if_pos hheld, hstore]
    rfl
  | lost hcmd hfree =>
    rw [hcmd]
    simp only
    rw [if_neg hfree]

/-- **What an access does**: it is answered under its number, and only a store
changes bytes. -/
theorem of_perform (h : d.perform request = .ok (answer, d')) :
    answer.id = request.id ∧ d'.config = d.config ∧ d'.inflight = d.inflight ∧
      (d'.memory = d.memory ∨ request.cmd.isExclusive = true ∧ d'.memory =
        { d.memory with contents := d.memory.contents.store request.addr request.data }) := by
  have hexclusive : ∀ {cmd : Command}, request.cmd = cmd → cmd.isExclusive = true →
      request.cmd.isExclusive = true := fun hcmd hex => hcmd ▸ hex
  cases performed_of_perform h with
  | loaded hcmd hread => exact ⟨rfl, rfl, rfl, Or.inl rfl⟩
  | reserved hcmd hread => exact ⟨rfl, rfl, rfl, Or.inl rfl⟩
  | lost hcmd hfree => exact ⟨rfl, rfl, rfl, Or.inl rfl⟩
  | stored hcmd hstore =>
    obtain ⟨hconfig, hinflight, hmemory⟩ := storeFor_eq_ok hstore
    exact ⟨rfl, hconfig, hinflight, Or.inr ⟨hexclusive hcmd rfl, hmemory⟩⟩
  | swapped hcmd hread hstore =>
    obtain ⟨hconfig, hinflight, hmemory⟩ := storeFor_eq_ok hstore
    exact ⟨rfl, hconfig, hinflight, Or.inr ⟨hexclusive hcmd rfl, hmemory⟩⟩
  | kept hcmd hheld hstore =>
    obtain ⟨hconfig, hinflight, hmemory⟩ := storeFor_eq_ok hstore
    exact ⟨rfl, hconfig, hinflight, Or.inr ⟨hexclusive hcmd rfl, hmemory⟩⟩

theorem size_of_perform (h : d.perform request = .ok (answer, d')) :
    d'.memory.size = d.memory.size := by
  obtain ⟨-, -, -, hsame | ⟨-, hchanged⟩⟩ := of_perform h
  · rw [hsame]
  · rw [hchanged]

/-- **Memories that agree perform accesses alike.** -/
theorem perform_of_agrees (h : d.Agrees e) (hd : d.perform request = .ok (answer, d')) :
    ∃ e', e.perform request = .ok (answer, e') ∧ d'.Agrees e' := by
  have hreservation := h.reservation?_eq request.addr
  -- memories that agree hold the same bytes and the same reservations
  cases performed_of_perform hd with
  | loaded hcmd hread =>
    rw [← h.memory] at hread
    exact ⟨e, (Performed.loaded hcmd hread).perform_eq, h⟩
  | reserved hcmd hread =>
    rw [← h.memory] at hread
    refine ⟨_, (Performed.reserved hcmd hread).perform_eq, h.config, h.memory, ?_⟩
    unfold reserve granule
    simp only [h.config, h.reservations]
  | stored hcmd hstore =>
    obtain ⟨e', he, hagrees⟩ := storeFor_of_agrees h hstore
    exact ⟨e', (Performed.stored hcmd he).perform_eq, hagrees⟩
  | swapped hcmd hread hstore =>
    obtain ⟨e', he, hagrees⟩ := storeFor_of_agrees h hstore
    rw [← h.memory] at hread
    exact ⟨e', (Performed.swapped hcmd hread he).perform_eq, hagrees⟩
  | kept hcmd hheld hstore =>
    obtain ⟨e', he, hagrees⟩ := storeFor_of_agrees h hstore
    rw [← hreservation] at hheld
    exact ⟨e', (Performed.kept hcmd hheld he).perform_eq, hagrees⟩
  | lost hcmd hfree =>
    rw [← hreservation] at hfree
    refine ⟨_, (Performed.lost hcmd hfree).perform_eq, h.config, h.memory, ?_⟩
    unfold clearReservations granule count
    simp only [h.config, h.reservations]

/-! ### Accesses that succeed -/

/-- **An access that keeps to the memory succeeds.** -/
theorem exists_perform (hpos : 0 < request.size)
    (hinside : request.addr + request.size ≤ d.memory.size)
    (hsized : request.cmd.isExclusive = true → request.data.length = request.size) :
    ∃ answer d', d.perform request = .ok (answer, d') := by
  have hread := Memory.read_eq_ok hpos hinside
  -- a store within the memory is written, so each command goes through
  have hstore : request.cmd.isExclusive = true → ∃ d', d.storeFor request = .ok d' := by
    intro hcmd
    have hcheck : d.memory.check request.addr request.data.length = .ok () := by
      rw [hsized hcmd]
      exact (Memory.check_eq_ok_iff _ _ _).mpr ⟨hpos, hinside⟩
    unfold storeFor Memory.write
    rw [hcheck]
    exact ⟨_, rfl⟩
  cases hcmd : request.cmd with
  | read => exact ⟨_, _, (Performed.loaded hcmd hread).perform_eq⟩
  | loadLocked => exact ⟨_, _, (Performed.reserved hcmd hread).perform_eq⟩
  | write =>
    rw [hcmd] at hstore
    obtain ⟨d', hd'⟩ := hstore rfl
    exact ⟨_, _, (Performed.stored hcmd hd').perform_eq⟩
  | swap =>
    rw [hcmd] at hstore hsized
    obtain ⟨d', hd'⟩ := hstore rfl
    rw [← hsized rfl] at hread
    exact ⟨_, _, (Performed.swapped hcmd hread hd').perform_eq⟩
  | storeCond =>
    rw [hcmd] at hstore
    obtain ⟨d', hd'⟩ := hstore rfl
    by_cases hheld : d.reservation? request.addr = some request.origin
    · exact ⟨_, _, (Performed.kept hcmd hheld hd').perform_eq⟩
    · exact ⟨_, _, (Performed.lost hcmd hheld).perform_eq⟩

/-- A load gets the bytes at its addresses and changes nothing. -/
theorem perform_read (hcmd : request.cmd = .read) (hpos : 0 < request.size)
    (hinside : request.addr + request.size ≤ d.memory.size) :
    d.perform request =
      .ok (⟨request.id, d.memory.contents.load request.addr request.size, true⟩, d) :=
  (Performed.loaded hcmd (Memory.read_eq_ok hpos hinside)).perform_eq

theorem of_perform_read (hcmd : request.cmd = .read)
    (h : d.perform request = .ok (answer, d')) :
    answer = ⟨request.id, d.memory.contents.load request.addr request.size, true⟩ := by
  cases performed_of_perform h with
  | loaded _ hread =>
    obtain ⟨_, -, rfl⟩ := exists_of_map_eq_ok hread
    rfl
  | reserved hcmd' _ => cases hcmd.symm.trans hcmd'
  | stored hcmd' _ => cases hcmd.symm.trans hcmd'
  | swapped hcmd' _ _ => cases hcmd.symm.trans hcmd'
  | kept hcmd' _ _ => cases hcmd.symm.trans hcmd'
  | lost hcmd' _ => cases hcmd.symm.trans hcmd'

/-! ### One after the other -/

theorem serially_cons {id : Nat} {o : Origin} {rest : List (Nat × Origin)}
    {cs : List (Nat × Nat × Response)} (hperform : d.perform (o.alone id) = .ok (answer, d'))
    (hrest : d'.serially rest = .ok (cs, e)) :
    d.serially ((id, o) :: rest) =
      .ok ((id, o.port, o.txn.completion answer.data answer.success) :: cs, e) := by
  unfold serially
  rw [hperform]
  simp only [Except.bind, hrest]
  rfl

/-- What comes first is performed first. -/
theorem of_serially_cons {id : Nat} {o : Origin} {rest : List (Nat × Origin)}
    {cs : List (Nat × Nat × Response)} (h : d.serially ((id, o) :: rest) = .ok (cs, e)) :
    ∃ answer d' cs', d.perform (o.alone id) = .ok (answer, d') ∧
      d'.serially rest = .ok (cs', e) ∧
      cs = (id, o.port, o.txn.completion answer.data answer.success) :: cs' := by
  unfold serially at h
  obtain ⟨⟨answer, d'⟩, hperform, h⟩ := exists_of_bind_eq_ok h
  obtain ⟨⟨cs', e'⟩, hrest, heq⟩ := exists_of_map_eq_ok h
  cases heq
  exact ⟨answer, d', cs', hperform, hrest, rfl⟩

theorem serially_append {xs ys : List (Nat × Origin)} {cs ds : List (Nat × Nat × Response)}
    (h : d.serially xs = .ok (cs, d')) (h' : d'.serially ys = .ok (ds, e)) :
    d.serially (xs ++ ys) = .ok (cs ++ ds, e) := by
  induction xs generalizing d cs with
  | nil =>
    cases h
    exact h'
  | cons x rest ih =>
    obtain ⟨answer, d₁, cs', hperform, hrest, rfl⟩ := of_serially_cons h
    exact serially_cons hperform (ih hrest)

/-- **A load one after the others** gets the bytes that are there after those
before it. -/
theorem loaded_of_serially {xs ys : List (Nat × Origin)} {id : Nat} {o : Origin}
    {cs : List (Nat × Nat × Response)} (hread : o.txn.cmd = .read)
    (h : d.serially (xs ++ (id, o) :: ys) = .ok (cs, d')) :
    ∃ before d₁ after, d.serially xs = .ok (before, d₁) ∧
      cs = before ++ (id, o.loaded d₁.memory.contents.byteAt) :: after := by
  induction xs generalizing d cs with
  | nil =>
    obtain ⟨answer, d₁, cs', hperform, -, rfl⟩ := of_serially_cons h
    rw [of_perform_read hread hperform]
    exact ⟨[], d, cs', rfl, rfl⟩
  | cons x rest ih =>
    obtain ⟨answer, d₁, cs', hperform, hrest, rfl⟩ := of_serially_cons h
    obtain ⟨before, d₂, after, hbefore, rfl⟩ := ih hrest
    exact ⟨_, d₂, after, serially_cons hperform hbefore, rfl⟩

theorem ids_serially {xs : List (Nat × Origin)} {cs : List (Nat × Nat × Response)}
    (h : d.serially xs = .ok (cs, d')) : cs.map (·.1) = xs.map (·.1) := by
  induction xs generalizing d cs with
  | nil =>
    cases h
    rfl
  | cons x rest ih =>
    obtain ⟨answer, d₁, cs', -, hrest, rfl⟩ := of_serially_cons h
    rw [List.map_cons, List.map_cons, ih hrest]

/-- **Loads one after the other** get the bytes that are there before the first
of them. -/
theorem serially_reads {os : List Origin} {lineSize : Nat} (id : Nat)
    (hread : ∀ o ∈ os, o.txn.cmd = .read)
    (hsound : ∀ o ∈ os, o.txn.Sound lineSize d.memory.size) :
    d.serially (os.map fun o => (id, o)) =
      .ok (os.map fun o => (id, o.loaded d.memory.contents.byteAt), d) := by
  induction os with
  | nil => rfl
  | cons o rest ih =>
    have ho := hsound o List.mem_cons_self
    have hperform : d.perform (o.alone id) =
        .ok (⟨id, d.memory.contents.load o.txn.addr o.txn.size, true⟩, d) :=
      perform_read (hread o List.mem_cons_self) ho.pos ho.inside
    have hrest := ih (fun o ho => hread o (List.mem_cons_of_mem _ ho))
      fun o ho => hsound o (List.mem_cons_of_mem _ ho)
    exact serially_cons hperform hrest

/-! ### Requests and answers -/

theorem heldBack_of_isIdle (h : d.isIdle = true) : d.heldBack = [] := by
  unfold isIdle TimedQueue.isEmpty at h
  rw [List.isEmpty_iff] at h
  unfold heldBack
  rw [h]
  rfl

theorem heldBack_push? {now : Nat} {inflight : TimedQueue BackendResponse}
    (h : d.inflight.push? now answer = some inflight) :
    ({ d with inflight } : DelayedMemory).heldBack = d.heldBack ++ [answer] := by
  unfold heldBack
  simp only [(TimedQueue.entries_push? h).1, List.map_append]
  rfl

theorem heldBack_pop? {now : Nat} {head : Stamped BackendResponse}
    {inflight : TimedQueue BackendResponse} (h : d.inflight.pop? now = some (head, inflight)) :
    d.heldBack = head.payload :: ({ d with inflight } : DelayedMemory).heldBack := by
  unfold heldBack
  rw [(TimedQueue.entries_pop? h).1]
  rfl

/-- Whether or not it keeps to the memory, an access answers nothing. -/
theorem inflight_access {l : Logged (BackendResponse × DelayedMemory)}
    (h : d.access request = .ok l) : l.value.2.inflight = d.inflight := by
  unfold access at h
  split at h
  · rename_i r hperform
    cases h
    exact (of_perform hperform).2.2.1
  · cases h
  · cases h
    rfl

/-- An access that leaves no failure is performed. -/
theorem perform_of_access {l : Logged (BackendResponse × DelayedMemory)}
    (h : d.access request = .ok l) (hfault : l.value.2.fault = none) :
    d.perform request = .ok l.value := by
  unfold access at h
  split at h
  · rename_i r hperform
    cases h
    exact hperform
  · cases h
  · cases h
    unfold keepFault at hfault
    cases hold : d.fault with
    | none => simp [hold] at hfault
    | some f => simp [hold] at hfault

/-- **What happens to a request**: it is refused for want of room, or it is
accessed and its answer held back. -/
theorem accept_cases {now : Nat} {accepted : Bool} {notices : List Notice}
    (h : d.accept now request = .ok ⟨(accepted, d'), notices⟩) :
    (accepted = false ∧ d.inflight.isFull = true ∧
      d' = ({ d with oweRetry := true } : DelayedMemory).count fun c =>
        { c with refused := c.refused + 1 }) ∨
    ∃ l inflight, accepted = true ∧ d.access request = .ok l ∧
      d.inflight.push? now l.value.1 = some inflight ∧
      d' = { l.value.2 with
        inflight, stats := { l.value.2.stats with accepted := l.value.2.stats.accepted + 1 } } := by
  unfold accept at h
  split at h
  · rename_i hfull
    cases h
    exact Or.inl ⟨rfl, hfull, rfl⟩
  · rename_i hroom
    -- the access answers nothing, so there is still room for its own answer
    obtain ⟨l, haccess, h⟩ := exists_of_map_eq_ok h
    simp only [Logged.map] at h
    have hinflight : ∀ f, (l.value.2.count f).inflight = d.inflight :=
      fun _ => inflight_access haccess
    rw [hinflight] at h
    obtain ⟨inflight, hpush⟩ := TimedQueue.exists_push? hroom now l.value.1
    rw [hpush] at h
    cases h
    exact Or.inr ⟨l, inflight, rfl, haccess, hpush, rfl⟩

/-- A request that is accepted and leaves no failure is performed. -/
theorem perform_of_accept {now : Nat} {notices : List Notice}
    (h : d.accept now request = .ok ⟨(true, d'), notices⟩) (hfault : d'.fault = none) :
    ∃ answer e, d.perform request = .ok (answer, e) := by
  obtain ⟨hrefused, -⟩ | ⟨l, inflight, -, haccess, -, rfl⟩ := accept_cases h
  · cases hrefused
  · exact ⟨l.value.1, l.value.2, perform_of_access haccess hfault⟩

/-- An access is refused only where there is no room. -/
theorem eq_of_refused {now : Nat} {notices : List Notice}
    (h : d.accept now request = .ok ⟨(false, d'), notices⟩) :
    d' = ({ d with oweRetry := true } : DelayedMemory).count fun c =>
      { c with refused := c.refused + 1 } := by
  obtain ⟨-, -, hd'⟩ | ⟨l, inflight, haccepted, -⟩ := accept_cases h
  · exact hd'
  · cases haccepted

/-- Where an access is refused, nothing happens. -/
theorem accept_refused {now : Nat} {notices : List Notice}
    (h : d.accept now request = .ok ⟨(false, d'), notices⟩) :
    d.Agrees d' ∧ d'.heldBack = d.heldBack := by
  rw [eq_of_refused h]
  exact ⟨⟨rfl, rfl, rfl⟩, rfl⟩

/-- An access that is accepted is performed and counted, and its answer waits. -/
theorem eq_of_accepted {now : Nat} {notices : List Notice}
    (h : d.accept now request = .ok ⟨(true, d'), notices⟩)
    (hperform : d.perform request = .ok (answer, e)) :
    ∃ inflight, d.inflight.push? now answer = some inflight ∧
      d' = { e with inflight, stats := { e.stats with accepted := e.stats.accepted + 1 } } := by
  obtain ⟨hrefused, -⟩ | ⟨l, inflight, -, haccess, hpush, hd'⟩ := accept_cases h
  · cases hrefused
  · unfold access at haccess
    rw [hperform] at haccess
    cases haccess
    exact ⟨inflight, hpush, hd'⟩

/-- **An access is performed when it is accepted**, and its answer held back. -/
theorem accept_accepted {now : Nat} {notices : List Notice}
    (h : d.accept now request = .ok ⟨(true, d'), notices⟩)
    (hperform : d.perform request = .ok (answer, e)) :
    e.Agrees d' ∧ d'.heldBack = d.heldBack ++ [answer] := by
  obtain ⟨inflight, hpush, rfl⟩ := eq_of_accepted h hperform
  exact ⟨⟨rfl, rfl, rfl⟩, heldBack_push? hpush⟩

/-! ### The memory's part of a cycle -/

/-- Answers that are offered go from those that are held back to those that wait. -/
theorem of_offerAnswers (now : Nat) (d : DelayedMemory) (a : Allocator) :
    d.Agrees (d.offerAnswers now a).value.1 ∧ Relays a (d.offerAnswers now a).value.2 ∧
      (d.offerAnswers now a).value.2.answers ++ (d.offerAnswers now a).value.1.heldBack =
        a.answers ++ d.heldBack := by
  fun_induction offerAnswers now d a with
  | case1 d a _ => exact ⟨.refl d, .refl, rfl⟩
  | case2 d a _ _ => exact ⟨.refl d, .refl, rfl⟩
  | case3 d a _ head inflight hpop offered htaken m m' ih =>
    -- the oldest answer is taken, and the others are offered after it
    obtain ⟨hagrees, hrelays, hanswers⟩ := ih offered.value
    have hheld : d.heldBack = head.payload :: m'.heldBack := heldBack_pop? hpop
    have htook : offered.value.2.answers =
        a.answers ++ if offered.value.1 then [head.payload] else [] := Allocator.answers_receive rfl
    rw [if_pos htaken] at htook
    have hfirst : d.Agrees m' := ⟨rfl, rfl, rfl⟩
    rw [Logged.value_andThen]
    refine ⟨hfirst.trans hagrees, Relays.trans (.received now head.payload .refl) hrelays, ?_⟩
    rw [hanswers, htook, hheld, List.append_assoc]
    rfl
  | case4 d a _ head inflight hpop offered htaken m m' =>
    have hleft : offered.value.2.answers =
        a.answers ++ if offered.value.1 then [head.payload] else [] := Allocator.answers_receive rfl
    rw [if_neg htaken, List.append_nil] at hleft
    rw [Logged.value_andThen]
    refine ⟨⟨rfl, rfl, rfl⟩, .received now head.payload .refl, ?_⟩
    simp only [hleft]
    rfl

/-- **Answers go out in the order in which they came in**, and nothing else
changes. -/
theorem of_tick (now : Nat) (d : DelayedMemory) (a : Allocator) :
    d.Agrees (d.tick now a).value.1 ∧ Relays a (d.tick now a).value.2 ∧
      (d.tick now a).value.2.answers ++ (d.tick now a).value.1.heldBack =
        a.answers ++ d.heldBack := by
  obtain ⟨hagrees, hrelays, hanswers⟩ := of_offerAnswers now d a
  unfold tick
  rw [Logged.value_andThen]
  generalize (d.offerAnswers now a).value = r at hagrees hrelays hanswers ⊢
  unfold settleRetry
  split
  · exact ⟨hagrees.trans ⟨rfl, rfl, rfl⟩, .resumed hrelays, hanswers⟩
  · exact ⟨hagrees, hrelays, hanswers⟩

end DelayedMemory

end MemPort
