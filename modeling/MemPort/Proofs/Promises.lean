import MemPort.Proofs.Accesses
import MemPort.Proofs.Regions

/-!
# What completions must bring

A generator decides what a completion must bring when it makes the access, long
before the memory performs it.  Both agree because only the port itself changes
what it sees: the memory will perform the accesses that the port has waiting
before this one, and nothing else will change these bytes.

## Main definitions

* `Transaction.promised`, `Transaction.applied` — what an access brings, and
  what it leaves.
* `Promised` — all accesses that wait will bring what is expected of them.
* `Fulfils` — a completion brings what is expected of it.
* `Scenario.Minds` — what an access does to the counter and to its
  reservation.

## Main results

* `Scenario.fulfils_of_perform` — an access that is performed brings what it
  promised.
* `Scenario.sameFor_applied`, `Scenario.sameFor_of_perform` — its port sees
  what it left, and no other port sees anything.

## References

`SPEC_FULL.md`, section 10.7: what the completions of a generator must bring.
-/

namespace MemPort

/-! ### Promises -/

/-- What an access brings from a memory. -/
def Transaction.promised (t : Transaction) (m : ByteMap) : Expectation :=
  match t.cmd with
  | .read => .data (m.load t.addr t.size)
  | .write => .acknowledgement
  | .swap => .data (m.load t.addr t.data.length)
  | .loadLocked => .counterValue
  | .storeCond => .incrementOutcome

/-- What an access leaves of the regions of a memory. -/
def Transaction.applied (t : Transaction) (m : ByteMap) : ByteMap :=
  match t.cmd with
  | .write | .swap => m.store t.addr t.data
  | .read | .loadLocked | .storeCond => m

/-- What accesses leave, one after the other. -/
def replay (m : ByteMap) (ts : List Transaction) : ByteMap :=
  ts.foldl (fun m t => t.applied m) m

/-- All accesses that wait will bring what is expected of them, if they are
performed one after the other. -/
def Promised (expects : Nat → Option Expectation) : ByteMap → List Transaction → Prop
  | _, [] => True
  | m, t :: rest => expects t.tag = some (t.promised m) ∧ Promised expects (t.applied m) rest

/-- A completion brings what is expected of it. -/
def Fulfils : Expectation → Response → Prop
  | .data bytes, r => r.data = bytes ∧ r.cmd.isLinked = false
  | .acknowledgement, r => r.cmd.isLinked = false
  | .counterValue, r => r.cmd = .loadLocked ∧ r.data.length = Generator.counterBytes
  | .incrementOutcome, r => r.cmd = .storeCond

theorem replay_concat (m : ByteMap) (ts : List Transaction) (t : Transaction) :
    replay m (ts ++ [t]) = t.applied (replay m ts) := by
  unfold replay
  rw [List.foldl_append]
  rfl

namespace Promised

variable {expects expects' : Nat → Option Expectation} {m : ByteMap} {ts : List Transaction}

/-- Only the accesses that wait matter. -/
theorem mono (h : Promised expects m ts) (hexpects : ∀ t ∈ ts, expects' t.tag = expects t.tag) :
    Promised expects' m ts := by
  induction ts generalizing m with
  | nil => trivial
  | cons t rest ih =>
    obtain ⟨hfirst, hrest⟩ := h
    refine ⟨?_, ih hrest fun t' ht' => hexpects t' (List.mem_cons_of_mem _ ht')⟩
    rw [hexpects t List.mem_cons_self, hfirst]

/-- One more access waits behind the others. -/
theorem concat {t : Transaction} (h : Promised expects m ts)
    (ht : expects t.tag = some (t.promised (replay m ts))) : Promised expects m (ts ++ [t]) := by
  induction ts generalizing m with
  | nil => exact ⟨ht, trivial⟩
  | cons t' rest ih =>
    obtain ⟨hfirst, hrest⟩ := h
    exact ⟨hfirst, ih hrest ht⟩

theorem isSome (h : Promised expects m ts) {t : Transaction} (ht : t ∈ ts) :
    (expects t.tag).isSome = true := by
  induction ts generalizing m with
  | nil => cases ht
  | cons t' rest ih =>
    obtain ⟨hfirst, hrest⟩ := h
    rcases List.mem_cons.mp ht with rfl | ht
    · rw [hfirst]
      rfl
    · exact ih hrest ht

end Promised

namespace Scenario

variable {w : Scenario} {port : Nat} {t : Transaction} {m m' : ByteMap}

theorem promised_congr (ht : w.Sited port t) (h : w.SameFor port m m') :
    t.promised m' = t.promised m := by
  unfold Transaction.promised
  cases hcmd : t.cmd with
  | read =>
    obtain ⟨region, hcovers⟩ := ht.load hcmd
    simp only [h.load_eq hcovers]
  | swap =>
    have hcovers := ht.store (Or.inr hcmd)
    rw [← ht.sound.sized (hcmd ▸ rfl)] at hcovers
    simp only [h.load_eq hcovers]
  | _ => rfl

theorem SameFor.applied (h : w.SameFor port m m') (t : Transaction) :
    w.SameFor port (t.applied m) (t.applied m') := by
  unfold Transaction.applied
  split
  · exact h.store _ _
  · exact h.store _ _
  · exact h
  · exact h
  · exact h

/-- No port stores to the shared region. -/
theorem Sited.byteAt_applied {p q addr : Nat} (ht : w.Sited p t) (m : ByteMap)
    (hcovers : w.layout.Covers q .sharedRegion addr 1) :
    (t.applied m).byteAt addr = m.byteAt addr := by
  have hstored : t.cmd = .write ∨ t.cmd = .swap →
      (m.store t.addr t.data).byteAt addr = m.byteAt addr := by
    intro hcmd
    have hexclusive : t.cmd.isExclusive = true := by
      rcases hcmd with heq | heq <;> rw [heq] <;> rfl
    have hprivate := ht.store hcmd
    rw [← ht.sound.sized hexclusive] at hprivate
    exact m.byteAt_store_of_disjoint (RegionLayout.disjoint_of_shared hprivate hcovers)
  unfold Transaction.applied
  split
  · rename_i heq
    exact hstored (Or.inl heq)
  · rename_i heq
    exact hstored (Or.inr heq)
  · rfl
  · rfl
  · rfl

theorem SameFor.replay (h : w.SameFor port m m') (ts : List Transaction) :
    w.SameFor port (replay m ts) (replay m' ts) := by
  induction ts generalizing m m' with
  | nil => exact h
  | cons t rest ih => exact ih (h.applied t)

/-- Accesses bring the same from memories that their port cannot tell apart. -/
theorem SameFor.promised (h : w.SameFor port m m') {expects : Nat → Option Expectation}
    {ts : List Transaction} (hts : ∀ t ∈ ts, w.Sited port t) (hp : Promised expects m ts) :
    Promised expects m' ts := by
  induction ts generalizing m m' with
  | nil => trivial
  | cons t rest ih =>
    obtain ⟨hfirst, hrest⟩ := hp
    refine ⟨?_, ih (h.applied t) (fun t' ht' => hts t' (List.mem_cons_of_mem _ ht')) hrest⟩
    rw [promised_congr (hts t List.mem_cons_self) h]
    exact hfirst

end Scenario

/-! ### Reservations -/

/-- **Looking up among the entries that were kept**: what was there before, if
it satisfies the test. -/
theorem AscMap.get?_filter_eq_some_iff {α : Type} {m : AscMap α} {p : Nat → α → Bool}
    {k : Nat} {v : α} :
    (m.filter p).get? k = some v ↔ m.get? k = some v ∧ p k v = true := by
  rw [← mem_entries_iff, ← mem_entries_iff]
  exact List.mem_filter

namespace DelayedMemory

variable {d d' : DelayedMemory} {request : BackendRequest} {answer : BackendResponse}

/-- Clearing reservations makes none. -/
theorem reservation?_of_clear {addr size a port : Nat}
    (h : (d.clearReservations addr size).reservation? a = some port) :
    d.reservation? a = some port := (AscMap.get?_filter_eq_some_iff.mp h).1

/-- Clearing the reservations of an access clears that of its first byte. -/
theorem reservation?_clear_self (hgranule : isPowerOfTwo d.config.reservationBytes = true)
    {addr : Nat} (size : Nat) (haddr : addr ≤ maxWord) :
    (d.clearReservations addr size).reservation? addr = none := by
  cases h : (d.clearReservations addr size).reservation? addr with
  | none => rfl
  | some port =>
    have hout := (AscMap.get?_filter_eq_some_iff.mp h).2
    have hle : addr ≤ satAdd addr (max size 1 - 1) :=
      Nat.le_min.mpr ⟨Nat.le_add_right _ _, haddr⟩
    have hlast : d.granule addr ≤ d.granule (satAdd addr (max size 1 - 1)) :=
      blockBase_mono hgranule hle
    have hself : (d.clearReservations addr size).granule addr = d.granule addr := rfl
    rw [hself] at hout
    simp [hlast] at hout

theorem reservation?_reserve (addr port a : Nat) :
    (d.reserve addr port).reservation? a =
      if d.granule addr = d.granule a then some port else d.reservation? a :=
  AscMap.get?_insert _ _ _ _

/-- A store leaves the reservations that clearing leaves. -/
theorem reservation?_storeFor (h : d.storeFor request = .ok d') (a : Nat) :
    d'.reservation? a = (d.clearReservations request.addr request.size).reservation? a := by
  obtain ⟨memory, -, rfl⟩ := exists_of_map_eq_ok h
  rfl

theorem fault_perform (h : d.perform request = .ok (answer, d')) : d'.fault = d.fault := by
  have hstored : ∀ {d' : DelayedMemory}, d.storeFor request = .ok d' → d'.fault = d.fault := by
    intro d' hstore
    obtain ⟨memory, -, rfl⟩ := exists_of_map_eq_ok hstore
    rfl
  cases performed_of_perform h with
  | loaded _ _ => rfl
  | reserved _ _ => rfl
  | stored _ hstore => exact hstored hstore
  | swapped _ _ hstore => exact hstored hstore
  | kept _ _ hstore => exact hstored hstore
  | lost _ _ => rfl

end DelayedMemory

/-! ### Accesses that are performed -/

/-- What is read has the length that was asked for. -/
theorem Memory.eq_of_read {m : Memory} {addr count : Nat} {data : Bytes}
    (h : m.read addr count = .ok data) : data = m.contents.load addr count := by
  obtain ⟨_, -, rfl⟩ := exists_of_map_eq_ok h
  rfl

namespace Scenario

variable {w : Scenario} {d d' : DelayedMemory} {o : Origin} {id : Nat} {answer : BackendResponse}

/-- **An access brings what it promised.** -/
theorem fulfils_of_perform (ho : w.Sited o.port o.txn)
    (h : d.perform (o.alone id) = .ok (answer, d')) :
    Fulfils (o.txn.promised d.memory.contents) (o.txn.completion answer.data answer.success) := by
  unfold Transaction.promised
  cases DelayedMemory.performed_of_perform h with
  | loaded hcmd hread =>
    have hcmd : o.txn.cmd = .read := hcmd
    simp only [hcmd]
    exact ⟨Memory.eq_of_read hread, congrArg Command.isLinked hcmd⟩
  | reserved hcmd hread =>
    have hcmd : o.txn.cmd = .loadLocked := hcmd
    simp only [hcmd]
    refine ⟨hcmd, ?_⟩
    rw [Memory.eq_of_read hread]
    exact (ByteMap.length_load _ _ _).trans (ho.linked (hcmd ▸ rfl)).2
  | stored hcmd hstore =>
    have hcmd : o.txn.cmd = .write := hcmd
    simp only [hcmd]
    exact congrArg Command.isLinked hcmd
  | swapped hcmd hread hstore =>
    have hcmd : o.txn.cmd = .swap := hcmd
    simp only [hcmd]
    exact ⟨Memory.eq_of_read hread, congrArg Command.isLinked hcmd⟩
  | kept hcmd _ _ =>
    have hcmd : o.txn.cmd = .storeCond := hcmd
    simp only [hcmd]
    exact hcmd
  | lost hcmd _ =>
    have hcmd : o.txn.cmd = .storeCond := hcmd
    simp only [hcmd]
    exact hcmd

/-- Its port sees what it left. -/
theorem sameFor_applied (ho : w.Sited o.port o.txn) (hport : o.port < w.numPorts)
    (h : d.perform (o.alone id) = .ok (answer, d')) :
    w.SameFor o.port (o.txn.applied d.memory.contents) d'.memory.contents := by
  unfold Transaction.applied
  cases DelayedMemory.performed_of_perform h with
  | loaded hcmd _ =>
    have hcmd : o.txn.cmd = .read := hcmd
    simp only [hcmd]
    exact .refl w _ _
  | reserved hcmd _ =>
    have hcmd : o.txn.cmd = .loadLocked := hcmd
    simp only [hcmd]
    exact .refl w _ _
  | stored hcmd hstore =>
    have hcmd : o.txn.cmd = .write := hcmd
    simp only [hcmd, (DelayedMemory.storeFor_eq_ok hstore).2.2]
    exact .refl w _ _
  | swapped hcmd _ hstore =>
    have hcmd : o.txn.cmd = .swap := hcmd
    simp only [hcmd, (DelayedMemory.storeFor_eq_ok hstore).2.2]
    exact .refl w _ _
  | kept hcmd _ hstore =>
    have hcmd : o.txn.cmd = .storeCond := hcmd
    have haddr : (o.alone id).addr = w.counterAddr := (ho.linked (hcmd ▸ rfl)).1
    simp only [hcmd, (DelayedMemory.storeFor_eq_ok hstore).2.2, haddr]
    exact sameFor_store_counter hport _ _
  | lost hcmd _ =>
    have hcmd : o.txn.cmd = .storeCond := hcmd
    simp only [hcmd]
    exact .refl w _ _

/-- No other port sees anything of it. -/
theorem sameFor_of_perform (ho : w.Sited o.port o.txn) {q : Nat} (hq : q < w.numPorts)
    (hne : o.port ≠ q) (h : d.perform (o.alone id) = .ok (answer, d')) :
    w.SameFor q d.memory.contents d'.memory.contents := by
  have hprivate : o.txn.cmd = .write ∨ o.txn.cmd = .swap → ∀ {d' : DelayedMemory},
      d.storeFor (o.alone id) = .ok d' → w.SameFor q d.memory.contents d'.memory.contents := by
    intro hcmd d' hstore
    have hcovers := ho.store hcmd
    have hex : o.txn.cmd.isExclusive = true := by rcases hcmd with h | h <;> rw [h] <;> rfl
    rw [← ho.sound.sized hex] at hcovers
    simp only [(DelayedMemory.storeFor_eq_ok hstore).2.2]
    exact sameFor_store_private hne hcovers _
  cases DelayedMemory.performed_of_perform h with
  | loaded _ _ => exact .refl w _ _
  | reserved _ _ => exact .refl w _ _
  | stored hcmd hstore => exact hprivate (Or.inl hcmd) hstore
  | swapped hcmd _ hstore => exact hprivate (Or.inr hcmd) hstore
  | kept hcmd _ hstore =>
    have hcmd : o.txn.cmd = .storeCond := hcmd
    have haddr : (o.alone id).addr = w.counterAddr := (ho.linked (hcmd ▸ rfl)).1
    simp only [(DelayedMemory.storeFor_eq_ok hstore).2.2, haddr]
    exact sameFor_store_counter hq _ _
  | lost _ _ => exact .refl w _ _

/-- The bytes of the counter. -/
def counterIn (w : Scenario) (d : DelayedMemory) : Bytes :=
  d.memory.contents.load w.counterAddr Generator.counterBytes

/-- What an access does to the counter and to its reservation. -/
inductive Minds (w : Scenario) (d d' : DelayedMemory) (o : Origin) (r : Response) : Prop
  /-- An access to a region does nothing to the counter, and reserves nothing. -/
  | apart (hcmd : o.txn.cmd.isLinked = false) (hcounter : w.counterIn d' = w.counterIn d)
      (hheld : ∀ p, d'.reservation? w.counterAddr = some p →
        d.reservation? w.counterAddr = some p)
  /-- A load-locked brings the counter, and reserves it. -/
  | loaded (hcmd : o.txn.cmd = .loadLocked) (hcounter : w.counterIn d' = w.counterIn d)
      (hdata : r.data = w.counterIn d) (hheld : d'.reservation? w.counterAddr = some o.port)
  /-- A store-conditional under a reservation stores, and ends all reservations. -/
  | stored (hcmd : o.txn.cmd = .storeCond) (hsuccess : r.success = true)
      (hheld : d.reservation? w.counterAddr = some o.port) (hcounter : w.counterIn d' = o.txn.data)
      (hfree : d'.reservation? w.counterAddr = none)
  /-- A store-conditional without one only ends the reservations of others. -/
  | failed (hcmd : o.txn.cmd = .storeCond) (hsuccess : r.success = false)
      (hcounter : w.counterIn d' = w.counterIn d) (hfree : d'.reservation? w.counterAddr = none)

theorem counterAddr_le (w : Scenario) : w.counterAddr ≤ maxWord :=
  Nat.le_trans (Nat.le_add_right _ _) w.stop_le

theorem minds_of_perform (ho : w.Sited o.port o.txn) (hport : o.port < w.numPorts)
    (hgranule : isPowerOfTwo d.config.reservationBytes = true)
    (h : d.perform (o.alone id) = .ok (answer, d')) :
    w.Minds d d' o (o.txn.completion answer.data answer.success) := by
  -- a store to the private region keeps away from the counter
  have hprivate : o.txn.cmd = .write ∨ o.txn.cmd = .swap → ∀ {d' : DelayedMemory},
      d.storeFor (o.alone id) = .ok d' → w.counterIn d' = w.counterIn d := by
    intro hcmd d' hstore
    have hle := RegionLayout.covers_le (ho.store hcmd) hport
    have hex : o.txn.cmd.isExclusive = true := by rcases hcmd with h | h <;> rw [h] <;> rfl
    rw [← ho.sound.sized hex] at hle
    unfold counterIn
    rw [(DelayedMemory.storeFor_eq_ok hstore).2.2]
    exact ByteMap.load_store_of_disjoint _ (Or.inr hle)
  have hcleared : ∀ {d' : DelayedMemory}, d.storeFor (o.alone id) = .ok d' →
      ∀ p, d'.reservation? w.counterAddr = some p → d.reservation? w.counterAddr = some p := by
    intro d' hstore p hp
    rw [DelayedMemory.reservation?_storeFor hstore] at hp
    exact DelayedMemory.reservation?_of_clear hp
  have hfree := DelayedMemory.reservation?_clear_self hgranule o.txn.size w.counterAddr_le
  cases DelayedMemory.performed_of_perform h with
  | loaded hcmd _ => exact .apart (congrArg Command.isLinked hcmd) rfl fun _ hp => hp
  | reserved hcmd hread =>
    obtain ⟨haddr, hsize⟩ := ho.linked (congrArg Command.isLinked hcmd)
    have hread := Memory.eq_of_read hread
    simp only [Origin.alone, haddr, hsize] at hread ⊢
    exact .loaded hcmd rfl hread ((DelayedMemory.reservation?_reserve _ _ _).trans (if_pos rfl))
  | stored hcmd hstore =>
    exact .apart (congrArg Command.isLinked hcmd) (hprivate (Or.inl hcmd) hstore) (hcleared hstore)
  | swapped hcmd _ hstore =>
    exact .apart (congrArg Command.isLinked hcmd) (hprivate (Or.inr hcmd) hstore) (hcleared hstore)
  | kept hcmd hheld hstore =>
    have hcmd : o.txn.cmd = .storeCond := hcmd
    obtain ⟨haddr, hsize⟩ := ho.linked (congrArg Command.isLinked hcmd)
    have hsized := (ho.sound.sized (hcmd ▸ rfl)).trans hsize
    have haddr : (o.alone id).addr = w.counterAddr := haddr
    rw [haddr] at hheld
    refine .stored hcmd rfl hheld ?_ ?_
    · unfold counterIn
      rw [(DelayedMemory.storeFor_eq_ok hstore).2.2, haddr, ← hsized]
      exact ByteMap.load_store _ _ _
    · rw [DelayedMemory.reservation?_storeFor hstore, haddr]
      exact hfree
  | lost hcmd _ =>
    have hcmd : o.txn.cmd = .storeCond := hcmd
    obtain ⟨haddr, -⟩ := ho.linked (congrArg Command.isLinked hcmd)
    refine .failed hcmd rfl rfl ?_
    simp only [Origin.alone, haddr]
    exact hfree

end Scenario

end MemPort
