import MemPort.Proofs.Setup

/-!
# When a store-conditional takes effect

A memory keeps its reservations in a map from granules to ports.  What the map
says of a granule can be told from the requests that were performed: a
load-locked of an address in the granule reserves it for its port, over a
reservation of another port, and a store with a byte in the granule ends the
reservation, also a store-conditional that has no effect itself.  All others
leave it alone, so the last request that is not among these tells whether the
granule is reserved, and for which port.

A store covers a range of bytes, which may begin in a granule and end in
another.  It clears the granules from that of its first byte to that of its
last, and these are the granules with a byte in the range.

## Main definitions

* `BackendRequest.Inside` — a request that a memory can perform.
* `BackendRequest.settles`, `settlerOf` — the requests that decide about a
  granule, and the last one.
* `heldAfter` — the reservation of a granule after some requests.
* `MemoryEvent`, `DelayedMemory.run` — what happens to a memory, with the
  requests that it performs.

## Main results

* `DelayedMemory.reservation?_perform` — what an access does to each
  reservation.
* `DelayedMemory.reservation?_run` — the last request that decides about a
  granule has made its reservation.
* `DelayedMemory.exists_run` — a memory can go on as long as requests keep to
  it.
* `storeCond_outcome` — when a store-conditional takes effect, and what it
  does then and otherwise.

## References

`SPEC_FULL.md`, section 10.7: reservations by granule, and when a
store-conditional succeeds.
-/

namespace MemPort

/-! ### Granules -/

theorem blockBase_le_blockBase_iff_le {n : Nat} (h : isPowerOfTwo n = true) (a b : Nat) :
    blockBase a n ≤ blockBase b n ↔ blockBase a n ≤ b := by
  constructor
  · intro hle
    exact Nat.le_trans hle (blockBase_le b n)
  · intro hle
    by_contra hgt
    have hlt := lt_blockBase_add h b
    rcases blockBase_add_le_or h (Nat.ne_of_gt (Nat.not_le.mp hgt)) with hbehind | hbehind <;> omega

theorem blockBase_le_blockBase_iff_lt {n : Nat} (h : isPowerOfTwo n = true) (a b : Nat) :
    blockBase a n ≤ blockBase b n ↔ a < blockBase b n + n := by
  have hlt := lt_blockBase_add h a
  constructor
  · intro hle
    omega
  · intro hin
    by_contra hgt
    have hle := blockBase_le a n
    rcases blockBase_add_le_or h (Nat.ne_of_gt (Nat.not_le.mp hgt)) with hbehind | hbehind <;> omega

/-! ### Requests that decide about a granule -/

namespace BackendRequest

/-- A request that a memory of some size can perform: it touches a byte and none
outside the memory, and a store brings a byte for every one that it touches. -/
structure Inside (r : BackendRequest) (memorySize : Nat) : Prop where
  /-- It touches a byte. -/
  pos : 0 < r.size
  /-- It touches none outside the memory. -/
  inside : r.addr + r.size ≤ memorySize
  /-- A store brings a byte for every one that it touches. -/
  sized : r.cmd.isExclusive = true → r.data.length = r.size

instance (r : BackendRequest) (memorySize : Nat) : Decidable (r.Inside memorySize) :=
  decidable_of_iff
    (0 < r.size ∧ r.addr + r.size ≤ memorySize ∧
      (r.cmd.isExclusive = true → r.data.length = r.size))
    ⟨fun ⟨hpos, hinside, hsized⟩ => ⟨hpos, hinside, hsized⟩,
      fun h => ⟨h.pos, h.inside, h.sized⟩⟩

/-- Whether a request decides about the reservation of the granule of an
address: a load-locked of an address in the granule, or a store of a byte in it,
whether or not it takes effect. -/
def settles (r : BackendRequest) (granuleBytes addr : Nat) : Bool :=
  let granule := blockBase addr granuleBytes
  match r.cmd with
  | .read => false
  | .loadLocked => blockBase r.addr granuleBytes == granule
  | .write | .swap | .storeCond => r.addr < granule + granuleBytes && granule < r.addr + r.size

/-- The port for which a request that decides about a granule reserves it, if it
does. -/
def holder (r : BackendRequest) : Option Nat := if r.cmd = .loadLocked then some r.origin else none

theorem settles_of_isExclusive {r : BackendRequest} (h : r.cmd.isExclusive = true)
    (granuleBytes addr : Nat) :
    r.settles granuleBytes addr = true ↔
      r.addr < blockBase addr granuleBytes + granuleBytes ∧
      blockBase addr granuleBytes < r.addr + r.size := by
  unfold settles
  cases hcmd : r.cmd with
  | read => rw [hcmd] at h; cases h
  | loadLocked => rw [hcmd] at h; cases h
  | _ => simp

theorem holder_of_isExclusive {r : BackendRequest} (h : r.cmd.isExclusive = true) :
    r.holder = none := by
  refine if_neg fun hcmd => ?_
  rw [hcmd] at h
  cases h

theorem holder_eq_some_iff {r : BackendRequest} {port : Nat} :
    r.holder = some port ↔ r.cmd = .loadLocked ∧ r.origin = port := by
  unfold holder
  split <;> simp_all

end BackendRequest

/-- The last of some requests that decides about the granule of an address. -/
def settlerOf (granuleBytes addr : Nat) (requests : List BackendRequest) : Option BackendRequest :=
  (requests.filter (·.settles granuleBytes addr)).getLast?

theorem settlerOf_append (granuleBytes addr : Nat) (requests later : List BackendRequest) :
    settlerOf granuleBytes addr (requests ++ later) =
      (settlerOf granuleBytes addr later).or (settlerOf granuleBytes addr requests) := by
  unfold settlerOf
  rw [List.filter_append, List.getLast?_append]

/-- The reservation of a granule after some requests, if it was another before
them. -/
def heldAfter (granuleBytes addr : Nat) (held : Option Nat) (requests : List BackendRequest) :
    Option Nat :=
  match settlerOf granuleBytes addr requests with
  | some r => r.holder
  | none => held

theorem heldAfter_append (granuleBytes addr : Nat) (held : Option Nat)
    (requests later : List BackendRequest) :
    heldAfter granuleBytes addr held (requests ++ later) =
      heldAfter granuleBytes addr (heldAfter granuleBytes addr held requests) later := by
  unfold heldAfter
  rw [settlerOf_append]
  cases settlerOf granuleBytes addr later <;> rfl

theorem heldAfter_singleton (granuleBytes addr : Nat) (held : Option Nat) (r : BackendRequest) :
    heldAfter granuleBytes addr held [r] =
      if r.settles granuleBytes addr then r.holder else held := by
  unfold heldAfter settlerOf
  cases h : r.settles granuleBytes addr <;> simp [h]

theorem heldAfter_none_eq_some_iff {granuleBytes addr port : Nat} {requests : List BackendRequest} :
    heldAfter granuleBytes addr none requests = some port ↔
      ∃ r, settlerOf granuleBytes addr requests = some r ∧ r.cmd = .loadLocked ∧
      r.origin = port := by
  unfold heldAfter
  cases settlerOf granuleBytes addr requests with
  | none => simp
  | some r => simp [BackendRequest.holder_eq_some_iff]

namespace DelayedMemory

variable {d d' : DelayedMemory} {request : BackendRequest} {answer : BackendResponse}

/-! ### What an access does to a reservation -/

/-- **Clearing the reservations of an access** clears those of the granules in
which it has a byte, and no others. -/
theorem reservation?_clear (hgranule : isPowerOfTwo d.config.reservationBytes = true)
    {addr size : Nat} (hpos : 0 < size) (hword : addr + size ≤ maxWord) (a : Nat) :
    (d.clearReservations addr size).reservation? a =
      if addr < d.granule a + d.config.reservationBytes ∧ d.granule a < addr + size then none
      else d.reservation? a := by
  have hlast : satAdd addr (max size 1 - 1) = addr + size - 1 := by
    rw [Nat.max_eq_left hpos, satAdd_eq_add (by omega)]
    omega
  have hcovered : d.granule addr ≤ d.granule a ∧ d.granule a ≤ d.granule (addr + size - 1) ↔
      addr < d.granule a + d.config.reservationBytes ∧ d.granule a < addr + size := by
    unfold granule
    rw [blockBase_le_blockBase_iff_lt hgranule, blockBase_le_blockBase_iff_le hgranule]
    omega
  ext port
  have hkept := AscMap.get?_filter_eq_some_iff (m := d.reservations) (k := d.granule a) (v := port)
    (p := fun g _ => !(d.granule addr ≤ g && g ≤ d.granule (addr + size - 1)))
  have hself : (d.clearReservations addr size).reservation? a = (d.reservations.filter fun g _ =>
      !(d.granule addr ≤ g && g ≤ d.granule (addr + size - 1))).get? (d.granule a) := by
    unfold clearReservations
    rw [hlast]
    rfl
  rw [hself, hkept]
  by_cases hin : addr < d.granule a + d.config.reservationBytes ∧ d.granule a < addr + size
  · rw [if_pos hin]
    simp [hcovered.mpr hin]
  · rw [if_neg hin]
    have hout := Decidable.not_and_iff_or_not.mp (mt hcovered.mp hin)
    simp only [Bool.not_eq_true', Bool.and_eq_false_iff, decide_eq_false_iff_not]
    exact and_iff_left hout

/-- **What an access does to each reservation**: only one that decides about the
granule changes it, and then it is reserved for the port of a load-locked, or
for none. -/
theorem reservation?_perform (hgranule : isPowerOfTwo d.config.reservationBytes = true)
    (hin : request.Inside d.memory.size) (hword : d.memory.size ≤ maxWord)
    (h : d.perform request = .ok (answer, d')) (a : Nat) :
    d'.reservation? a = heldAfter d.config.reservationBytes a (d.reservation? a) [request] := by
  have hclear := reservation?_clear hgranule hin.pos (Nat.le_trans hin.inside hword) a
  -- all accesses that store come to the same, with or without effect
  have hexclusive : ∀ {cmd : Command}, request.cmd = cmd → cmd.isExclusive = true →
      (d.clearReservations request.addr request.size).reservation? a =
        heldAfter d.config.reservationBytes a (d.reservation? a) [request] := by
    intro cmd hcmd hex
    have hex : request.cmd.isExclusive = true := hcmd ▸ hex
    rw [hclear, heldAfter_singleton, BackendRequest.holder_of_isExclusive hex]
    exact if_congr (BackendRequest.settles_of_isExclusive hex _ _).symm rfl rfl
  cases performed_of_perform h with
  | loaded hcmd _ =>
    rw [heldAfter_singleton, if_neg]
    unfold BackendRequest.settles
    rw [hcmd]
    exact Bool.false_ne_true
  | reserved hcmd _ =>
    rw [heldAfter_singleton, reservation?_reserve]
    refine if_congr ?_ (if_pos hcmd).symm rfl
    unfold BackendRequest.settles
    rw [hcmd]
    exact beq_iff_eq.symm
  | stored hcmd hstore => exact (reservation?_storeFor hstore a).trans (hexclusive hcmd rfl)
  | swapped hcmd _ hstore => exact (reservation?_storeFor hstore a).trans (hexclusive hcmd rfl)
  | kept hcmd _ hstore => exact (reservation?_storeFor hstore a).trans (hexclusive hcmd rfl)
  | lost hcmd _ => exact hexclusive hcmd rfl

end DelayedMemory

/-! ### What happens to a memory -/

/-- What can happen to a memory. -/
inductive MemoryEvent where
  /-- It is asked to take a request. -/
  | asked (now : Nat) (request : BackendRequest)
  /-- It performs an access at once. -/
  | immediate (request : BackendRequest)
  /-- A cycle passes. -/
  | ticked (now : Nat) (a : Allocator)
  /-- The allocator has room again for an answer. -/
  | unblocked
  /-- Its failure is taken. -/
  | faultTaken

/-- The request that is to be performed. -/
def MemoryEvent.request? : MemoryEvent → Option BackendRequest
  | asked _ request | immediate request => some request
  | ticked .. | unblocked | faultTaken => none

namespace DelayedMemory

/-- The requests that a memory performs when something happens, and what becomes
of it. -/
def react (d : DelayedMemory) :
    MemoryEvent → Except Assertion (List BackendRequest × DelayedMemory)
  | .asked now request =>
      (d.accept now request).map fun l => (if l.value.1 then [request] else [], l.value.2)
  | .immediate request => (d.access request).map fun l => ([request], l.value.2)
  | .ticked now a => .ok ([], (d.tick now a).value.1)
  | .unblocked => .ok ([], d.unblock)
  | .faultTaken => .ok ([], d.takeFault.2)

/-- The requests that a memory performs while things happen one after the other,
and what becomes of it. -/
def run (d : DelayedMemory) :
    List MemoryEvent → Except Assertion (List BackendRequest × DelayedMemory)
  | [] => .ok ([], d)
  | e :: rest => (d.react e).bind fun r => (r.2.run rest).map fun s => (r.1 ++ s.1, s.2)

variable {d d' : DelayedMemory} {e : MemoryEvent} {events : List MemoryEvent}
  {request : BackendRequest} {requests : List BackendRequest} {answer : BackendResponse}

theorem access_of_perform (h : d.perform request = .ok (answer, d')) :
    d.access request = .ok (.quiet (answer, d')) := by
  unfold access
  rw [h]

/-- **At most one request is performed at a time**, and nothing else changes
bytes or reservations. -/
theorem of_react (h : d.react e = .ok (requests, d'))
    (hinside : ∀ r ∈ requests, r.Inside d.memory.size) :
    requests = [] ∧ d.Agrees d' ∨
      ∃ r answer d₁, requests = [r] ∧ d.perform r = .ok (answer, d₁) ∧
      d₁.Agrees d' := by
  cases e with
  | asked now request =>
    obtain ⟨⟨⟨taken, d₂⟩, notices⟩, haccept, heq⟩ := exists_of_map_eq_ok h
    cases heq
    cases taken with
    | false => exact .inl ⟨rfl, (accept_refused haccept).1⟩
    | true =>
      have hr := hinside request (List.mem_singleton_self _)
      obtain ⟨answer, d₁, hperform⟩ := exists_perform hr.pos hr.inside hr.sized
      exact .inr ⟨request, answer, d₁, rfl, hperform, (accept_accepted haccept hperform).1⟩
  | immediate request =>
    obtain ⟨l, haccess, heq⟩ := exists_of_map_eq_ok h
    cases heq
    have hr := hinside request (List.mem_singleton_self _)
    obtain ⟨answer, d₁, hperform⟩ := exists_perform hr.pos hr.inside hr.sized
    rw [access_of_perform hperform] at haccess
    cases haccess
    exact .inr ⟨request, answer, d₁, rfl, hperform, .refl _⟩
  | ticked now a =>
    cases h
    exact .inl ⟨rfl, (of_tick now d a).1⟩
  | unblocked =>
    cases h
    exact .inl ⟨rfl, ⟨rfl, rfl, rfl⟩⟩
  | faultTaken =>
    cases h
    exact .inl ⟨rfl, ⟨rfl, rfl, rfl⟩⟩

theorem kept_react (h : d.react e = .ok (requests, d'))
    (hinside : ∀ r ∈ requests, r.Inside d.memory.size) :
    d'.config = d.config ∧ d'.memory.size = d.memory.size := by
  rcases of_react h hinside with ⟨-, hagrees⟩ | ⟨r, answer, d₁, -, hperform, hagrees⟩
  · exact ⟨hagrees.config, congrArg Memory.size hagrees.memory⟩
  · refine ⟨hagrees.config.trans (of_perform hperform).2.1, ?_⟩
    rw [hagrees.memory]
    exact size_of_perform hperform

/-- What comes first happens first. -/
theorem of_run_cons {rest : List MemoryEvent} (h : d.run (e :: rest) = .ok (requests, d')) :
    ∃ performed d₁ later, d.react e = .ok (performed, d₁) ∧
    d₁.run rest = .ok (later, d') ∧
      requests = performed ++ later := by
  obtain ⟨⟨performed, d₁⟩, hreact, h⟩ := exists_of_bind_eq_ok h
  obtain ⟨⟨later, d₂⟩, hrest, heq⟩ := exists_of_map_eq_ok h
  cases heq
  exact ⟨performed, d₁, later, hreact, hrest, rfl⟩

theorem kept_run (h : d.run events = .ok (requests, d'))
    (hinside : ∀ r ∈ requests, r.Inside d.memory.size) :
    d'.config = d.config ∧ d'.memory.size = d.memory.size := by
  induction events generalizing d requests with
  | nil =>
    cases h
    exact ⟨rfl, rfl⟩
  | cons e rest ih =>
    obtain ⟨performed, d₁, later, hreact, hrest, rfl⟩ := of_run_cons h
    obtain ⟨hconfig, hsize⟩ := kept_react hreact fun r hr =>
      hinside r (List.mem_append_left _ hr)
    obtain ⟨hconfig', hsize'⟩ :=
      ih hrest fun r hr => hsize ▸ hinside r (List.mem_append_right _ hr)
    exact ⟨hconfig'.trans hconfig, hsize'.trans hsize⟩

/-- What happens once makes the reservations that its request makes. -/
theorem reservation?_react (hgranule : isPowerOfTwo d.config.reservationBytes = true)
    (hword : d.memory.size ≤ maxWord) (h : d.react e = .ok (requests, d'))
    (hinside : ∀ r ∈ requests, r.Inside d.memory.size) (a : Nat) :
    d'.reservation? a = heldAfter d.config.reservationBytes a (d.reservation? a) requests := by
  rcases of_react h hinside with ⟨rfl, hagrees⟩ | ⟨r, answer, d₁, rfl, hperform, hagrees⟩
  · exact hagrees.reservation?_eq a
  · rw [hagrees.reservation?_eq]
    exact reservation?_perform hgranule (hinside r (List.mem_singleton_self _)) hword hperform a

/-- **The last request that decides about a granule has made its reservation.** -/
theorem reservation?_run (hgranule : isPowerOfTwo d.config.reservationBytes = true)
    (hword : d.memory.size ≤ maxWord) (h : d.run events = .ok (requests, d'))
    (hinside : ∀ r ∈ requests, r.Inside d.memory.size) (a : Nat) :
    d'.reservation? a = heldAfter d.config.reservationBytes a (d.reservation? a) requests := by
  induction events generalizing d requests with
  | nil =>
    cases h
    rfl
  | cons e rest ih =>
    obtain ⟨performed, d₁, later, hreact, hrest, rfl⟩ := of_run_cons h
    have hfirst : ∀ r ∈ performed, r.Inside d.memory.size :=
      fun r hr => hinside r (List.mem_append_left _ hr)
    obtain ⟨hconfig, hsize⟩ := kept_react hreact hfirst
    have hlater : ∀ r ∈ later, r.Inside d₁.memory.size :=
      fun r hr => hsize ▸ hinside r (List.mem_append_right _ hr)
    rw [heldAfter_append, ← reservation?_react hgranule hword hreact hfirst a, ← hconfig]
    exact ih (hconfig ▸ hgranule) (hsize ▸ hword) hrest hlater

/-! ### Requests that keep to the memory -/

/-- A request that can be performed is taken where there is room, and its answer
held back. -/
theorem accept_of_perform (now : Nat) (hroom : d.inflight.isFull = false)
    (hperform : d.perform request = .ok (answer, d')) :
    ∃ d'', d.accept now request = .ok (.quiet (true, d'')) ∧ d'.Agrees d'' ∧
      d''.heldBack = d.heldBack ++ [answer] := by
  obtain ⟨inflight, hpush⟩ := TimedQueue.exists_push? (Bool.eq_false_iff.mp hroom) now answer
  have hinflight : ∀ f, (d'.count f).inflight = d.inflight := fun _ => (of_perform hperform).2.2.1
  have haccept : d.accept now request = .ok (.quiet (true,
      { d' with inflight, stats := { d'.stats with accepted := d'.stats.accepted + 1 } })) := by
    unfold accept
    rw [hroom, access_of_perform hperform]
    simp only [Except.map, Logged.quiet, Logged.map, hinflight, hpush]
    rfl
  obtain ⟨hagrees, hheld⟩ := accept_accepted haccept hperform
  exact ⟨_, haccept, hagrees, hheld⟩

theorem exists_react (hinside : ∀ r, e.request? = some r → r.Inside d.memory.size) :
    ∃ requests d', d.react e = .ok (requests, d') ∧
    ∀ r ∈ requests, r.Inside d.memory.size := by
  cases e with
  | asked now request =>
    have hr := hinside request rfl
    obtain ⟨answer, d₁, hperform⟩ := exists_perform hr.pos hr.inside hr.sized
    obtain ⟨l, haccept, -⟩ := exists_accept now hperform
    refine ⟨if l.value.1 then [request] else [], l.value.2, ?_, fun r hmem => ?_⟩
    · simp only [react, haccept]
      rfl
    · split at hmem
      · rw [List.mem_singleton.mp hmem]
        exact hr
      · cases hmem
  | immediate request =>
    have hr := hinside request rfl
    obtain ⟨answer, d₁, hperform⟩ := exists_perform hr.pos hr.inside hr.sized
    refine ⟨[request], d₁, ?_, fun r hmem => ?_⟩
    · simp only [react, access_of_perform hperform]
      rfl
    · rw [List.mem_singleton.mp hmem]
      exact hr
  | ticked now a => exact ⟨[], _, rfl, fun r hmem => by cases hmem⟩
  | unblocked => exact ⟨[], _, rfl, fun r hmem => by cases hmem⟩
  | faultTaken => exact ⟨[], _, rfl, fun r hmem => by cases hmem⟩

/-- **A memory can go on** as long as the requests that are brought to it keep
to it. -/
theorem exists_run
    (hinside : ∀ e ∈ events, ∀ r, e.request? = some r → r.Inside d.memory.size) :
    ∃ requests d', d.run events = .ok (requests, d') ∧
    ∀ r ∈ requests, r.Inside d.memory.size := by
  induction events generalizing d with
  | nil => exact ⟨[], d, rfl, fun r hmem => by cases hmem⟩
  | cons e rest ih =>
    obtain ⟨performed, d₁, hreact, hperformed⟩ := exists_react (hinside e List.mem_cons_self)
    have hsize := (kept_react hreact hperformed).2
    obtain ⟨later, d₂, hrest, hlater⟩ :=
      ih fun e' he' => hsize ▸ hinside e' (List.mem_cons_of_mem _ he')
    refine ⟨performed ++ later, d₂, ?_, fun r hmem => ?_⟩
    · unfold run
      rw [hreact, Except.bind, hrest]
      rfl
    · rcases List.mem_append.mp hmem with hmem | hmem
      · exact hperformed r hmem
      · exact hsize ▸ hlater r hmem

/-! ### What becomes of a store-conditional -/

/-- **A store-conditional stores if its port holds the reservation**, and says
so. -/
theorem of_perform_storeCond (hcmd : request.cmd = .storeCond)
    (h : d.perform request = .ok (answer, d')) :
    (answer.success = true ↔ d.reservation? request.addr = some request.origin) ∧
      d'.memory = if answer.success then
        { d.memory with contents := d.memory.contents.store request.addr request.data }
          else d.memory := by
  cases performed_of_perform h with
  | loaded hcmd' _ => cases hcmd.symm.trans hcmd'
  | reserved hcmd' _ => cases hcmd.symm.trans hcmd'
  | stored hcmd' _ => cases hcmd.symm.trans hcmd'
  | swapped hcmd' _ _ => cases hcmd.symm.trans hcmd'
  | kept _ hheld hstore => exact ⟨iff_of_true rfl hheld, (storeFor_eq_ok hstore).2.2⟩
  | lost _ hfree => exact ⟨iff_of_false Bool.false_ne_true hfree, rfl⟩

theorem memoryBytes_le_of_new {config : MemoryConfig} (h : DelayedMemory.new config = .ok d) :
    config.memoryBytes ≤ maxWord :=
  Nat.le_trans (Nat.le_of_lt (memoryBytes_lt_of_new h)) storageBytes_le_maxWord

end DelayedMemory

/-- A store puts each of its bytes at its address, and nothing elsewhere. -/
theorem ByteMap.byteAt_store_of_length {m : ByteMap} {data : Bytes} {size : Nat}
    (h : data.length = size) (addr a : Nat) : (m.store addr data).byteAt a =
      if addr ≤ a ∧ a < addr + size then data.getD (a - addr) 0 else m.byteAt a := by
  rw [byteAt_store]
  by_cases hle : addr ≤ a
  · rw [if_pos hle]
    by_cases hlt : a < addr + size
    · have hin : a - addr < data.length := by omega
      rw [if_pos ⟨hle, hlt⟩]
      simp [hin]
    · have hout : data.length ≤ a - addr := by omega
      rw [if_neg fun h => hlt h.2]
      simp [hout]
  · rw [if_neg hle, if_neg fun h => hle h.1]

/-- **When a store-conditional takes effect**: if the last request before it
that decides about its granule is a load-locked of its port.  It is performed in
any case, at once or when it is taken; then it stores all its bytes and nothing
else, and otherwise it changes none. -/
theorem storeCond_outcome {config : MemoryConfig} {start d : DelayedMemory}
    {events : List MemoryEvent} {performed : List BackendRequest} {request : BackendRequest}
    (hnew : DelayedMemory.new config = .ok start) (hrun : start.run events = .ok (performed, d))
    (hinside : ∀ r ∈ performed, r.Inside config.memoryBytes)
    (hcmd : request.cmd = .storeCond) (hrequest : request.Inside config.memoryBytes) :
    ∃ answer d', d.access request = .ok (.quiet (answer, d')) ∧
      (∀ now, d.inflight.isFull = false → ∃ d'', d.accept now request =
        .ok (.quiet (true, d'')) ∧
        d''.memory = d'.memory ∧ d''.heldBack = d.heldBack ++ [answer]) ∧
      (answer.success = true ↔
        ∃ r, settlerOf config.reservationBytes request.addr performed = some r ∧
        r.cmd = .loadLocked ∧ r.origin = request.origin) ∧
      (answer.success = true → d'.memory.size = d.memory.size ∧
        ∀ a, d'.memory.contents.byteAt a =
          if request.addr ≤ a ∧ a < request.addr + request.size then
            request.data.getD (a - request.addr) 0
          else d.memory.contents.byteAt a) ∧
      (answer.success = false → d'.memory = d.memory) := by
  obtain ⟨hgranule, hconfig, hmemory, -, hreservations, -⟩ := DelayedMemory.of_new hnew
  have hstart : start.memory.size = config.memoryBytes := by
    rw [hmemory]
    rfl
  have hfree : start.reservation? request.addr = none := by
    unfold DelayedMemory.reservation?
    rw [hreservations]
    rfl
  rw [← hstart] at hinside hrequest
  obtain ⟨hconfig', hsize⟩ := DelayedMemory.kept_run hrun hinside
  -- the reservation of its granule is that of the last request that decides about it
  have hheld := DelayedMemory.reservation?_run (hconfig ▸ hgranule)
    (hstart ▸ DelayedMemory.memoryBytes_le_of_new hnew) hrun hinside request.addr
  rw [hfree, hconfig] at hheld
  rw [← hsize] at hrequest
  obtain ⟨answer, d', hperform⟩ :=
    DelayedMemory.exists_perform hrequest.pos hrequest.inside hrequest.sized
  obtain ⟨hsuccess, heffect⟩ := DelayedMemory.of_perform_storeCond hcmd hperform
  refine ⟨answer, d', DelayedMemory.access_of_perform hperform, fun now hroom => ?_, ?_,
    fun hdone => ?_, fun hlost => ?_⟩
  · obtain ⟨d'', haccept, hagrees, hback⟩ := DelayedMemory.accept_of_perform now hroom hperform
    exact ⟨d'', haccept, hagrees.memory, hback⟩
  · rw [hsuccess, hheld]
    exact heldAfter_none_eq_some_iff
  · rw [if_pos hdone] at heffect
    rw [heffect]
    exact ⟨rfl, fun a => ByteMap.byteAt_store_of_length (hrequest.sized (hcmd ▸ rfl)) _ a⟩
  · rw [hlost] at heffect
    exact heffect

/-- A load-locked, a store to the same granule that is refused, and a store that
ends where the granule begins. -/
def refusedWrite : List MemoryEvent :=
  [.asked 0 ⟨0, 1, .loadLocked, 256, 4, []⟩, .asked 0 ⟨1, 0, .write, 260, 4, [9, 9, 9, 9]⟩,
    .immediate ⟨2, 0, .write, 254, 2, [9, 9]⟩]

/-- The port that reserved the granule may store to it, because the store of the
other port was not performed. -/
theorem storeCond_outcome_refusedWrite : ∃ start performed d answer d',
    DelayedMemory.new { capacity := 1, memoryBytes := 4096 } = .ok start ∧
      start.run refusedWrite = .ok (performed, d) ∧ performed.map (·.id) = [0, 2] ∧
      d.access ⟨3, 1, .storeCond, 260, 4, [7, 7, 7, 7]⟩ = .ok (.quiet (answer, d')) ∧
      answer.success = true := by
  obtain ⟨⟨performed, d⟩, hstarted, hperformed⟩ := exists_of_any
    (x := (DelayedMemory.new { capacity := 1, memoryBytes := 4096 }).bind (·.run refusedWrite))
    (p := fun r => r.1 == [⟨0, 1, .loadLocked, 256, 4, []⟩, ⟨2, 0, .write, 254, 2, [9, 9]⟩])
    (by decide +kernel)
  obtain ⟨start, hnew, hrun⟩ := exists_of_bind_eq_ok hstarted
  have hperformed : performed = _ := beq_iff_eq.mp hperformed
  subst hperformed
  have hrequest : BackendRequest.Inside ⟨3, 1, .storeCond, 260, 4, [7, 7, 7, 7]⟩ 4096 := by
    decide
  obtain ⟨answer, d', haccess, -, hsuccess, -⟩ :=
    storeCond_outcome hnew hrun (by decide) (by decide) hrequest
  exact ⟨start, _, d, answer, d', hnew, hrun, rfl, haccess, hsuccess.mpr ⟨_, rfl, rfl, rfl⟩⟩

end MemPort
