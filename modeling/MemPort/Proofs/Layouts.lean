import MemPort.Proofs.SimulationVerdict

/-!
# Layouts that are accepted

A simulation is set up only for regions of whole lines that lie in the memory.
Then its transactions are meant to go to certain places: those of a pattern of
increments to the line of the counter, and those of any other pattern to its
region, the private one being that of the port; and each is meant to keep to one
line.

What is checked is not enough for that.  Nothing compares the size of an access
with that of a line, a region may be empty, and a line may be too short for the
counter.  Apart from these settings all is well, and where a line is too short
or the place is empty, every single transaction goes astray: so the exact
condition can be read off the settings alone.

## Main definitions

* `Pattern.accessBytes` — the bytes that a transaction of a pattern touches.
* `Zone`, `Pattern.zone` — the place where the transactions of a pattern are
  meant to go.
* `Transaction.KeepsToLine` — all bytes of a transaction are in one line.

## Main results

* `Generator.of_nextIncrement`, `Generator.of_nextAccess` — where a generator
  puts what it builds.
* `layout_sound_iff` — when the transactions of a simulation keep to their
  lines and to their places.
* `layout_accepted_unsound` — settings that are accepted although no
  transaction keeps to its place.

## References

`SPEC_FULL.md`, section 10.7: the layout of the regions.
-/

namespace MemPort

/-- Some consecutive addresses. -/
structure Zone where
  /-- The first of them. -/
  start : Nat
  /-- How many there are. -/
  bytes : Nat
  deriving DecidableEq, Repr

/-- All bytes of a transaction lie in a zone. -/
def Zone.Holds (z : Zone) (t : Transaction) : Prop :=
  z.start ≤ t.addr ∧ t.addr + t.size ≤ z.start + z.bytes

/-- All bytes of a transaction lie in one line. -/
def Transaction.KeepsToLine (t : Transaction) (lineSize : Nat) : Prop :=
  t.addr % lineSize + t.size ≤ lineSize

namespace Pattern

/-- The bytes that a transaction of a pattern touches. -/
def accessBytes (p : Pattern) : Nat := if p.isAtomic then Generator.counterBytes else p.reqBytes

/-- Where the transactions of a pattern are meant to go: to the line of the
counter, or to the region of the pattern as the port sees it. -/
def zone (p : Pattern) (l : RegionLayout) (numPorts lineSize port : Nat) : Zone :=
  if p.isAtomic then ⟨l.counterAddr numPorts, lineSize⟩
  else ⟨l.startOf port p.region, l.bytesOf p.region⟩

end Pattern

instance (z : Zone) (t : Transaction) : Decidable (z.Holds t) :=
  inferInstanceAs (Decidable (_ ∧ _))

instance (t : Transaction) (lineSize : Nat) : Decidable (t.KeepsToLine lineSize) :=
  inferInstanceAs (Decidable (_ ≤ _))

/-! ### Where transactions are put -/

/-- The transaction that a generator builds for its current pattern, if it
builds one. -/
def Generator.built? (g : Generator) (set : PatternSet) : Option (Pattern × Transaction) :=
  match set.patterns[g.pattern]? with
  | none => none
  | some p =>
      match if p.isAtomic then g.nextIncrement else g.nextAccess set p with
      | .ok (some (txn, _)) => some (p, txn)
      | _ => none

/-- The offset of an access is a place of its pattern. -/
theorem PatternSet.exists_place {set : PatternSet} {p : Pattern} {i reqIndex port offset : Nat}
    (hp : set.patterns[i]? = some p) (h : set.offset i reqIndex port = .ok (some offset)) :
    ∃ raw, offset = p.place raw := by
  unfold PatternSet.offset at h
  rw [hp] at h
  obtain ⟨place, hplace, heq⟩ := exists_of_map_eq_ok h
  cases heq
  unfold Pattern.offset at hplace
  split at hplace
  · rename_i raw _
    cases hplace
    exact ⟨raw, rfl⟩
  · cases hplace

namespace Generator

variable {g g' : Generator} {set : PatternSet} {p : Pattern} {txn : Transaction}

/-- Increments go to the address of the counter. -/
theorem of_nextIncrement (h : g.nextIncrement = .ok (some (txn, g'))) :
    txn.addr = g.layout.counterAddr g.numPorts ∧ txn.size = counterBytes := by
  unfold nextIncrement at h
  split at h
  · cases h
  · obtain ⟨addr, haddr, heq⟩ := exists_of_map_eq_ok h
    have haddr : addr = g.layout.counterAddr g.numPorts := by
      unfold RegionLayout.checkedStop at haddr
      split at haddr <;> cases haddr
      rfl
    unfold makeIncrement at heq
    split at heq <;> cases heq
    · exact ⟨haddr, rfl⟩
    · exact ⟨haddr, rfl⟩

/-- An access that is made at an offset into a region goes there, and has the
size of its pattern. -/
theorem of_makeAt {offset : Nat} (h : g.makeAt p offset = .ok (txn, g')) :
    txn.addr = g.layout.startOf g.port p.region + offset ∧ txn.size = p.reqBytes := by
  unfold makeAt at h
  simp only at h
  split at h
  · cases h
  · cases h
    have hlength : (payload g.port g.nextTag p.reqBytes).length = p.reqBytes :=
      (List.length_map _).trans List.length_range
    rw [← target_eq]
    unfold makeAccess
    cases p.op with
    | read => exact ⟨rfl, rfl⟩
    | write => exact ⟨rfl, hlength⟩
    | swap => exact ⟨rfl, hlength⟩

/-- Other accesses go to a place of the pattern in its region. -/
theorem of_nextAccess (h : g.nextAccess set p = .ok (some (txn, g')))
    (hp : set.patterns[g.pattern]? = some p) :
    ∃ raw, txn.addr = g.layout.startOf g.port p.region + p.place raw ∧
    txn.size = p.reqBytes := by
  unfold nextAccess at h
  split at h
  · cases h
  split at h
  · cases h
  · cases h
  rename_i offset hoffset
  obtain ⟨raw, rfl⟩ := PatternSet.exists_place hp hoffset
  obtain ⟨made, hmade, heq⟩ := exists_of_map_eq_ok h
  cases heq
  exact ⟨raw, of_makeAt hmade⟩

/-- **Where a generator puts what it builds**: where the zone of its pattern
starts, or at some place from there. -/
theorem of_built (h : g.built? set = some (p, txn)) :
    p ∈ set.patterns ∧ txn.size = p.accessBytes ∧
      if p.isAtomic then txn.addr = g.layout.counterAddr g.numPorts
      else ∃ raw, txn.addr = g.layout.startOf g.port p.region + p.place raw := by
  unfold built? at h
  split at h
  · cases h
  rename_i q hq
  split at h
  · rename_i t g' hbuilt
    cases h
    refine ⟨List.mem_of_getElem? hq, ?_⟩
    unfold Pattern.accessBytes
    cases hatomic : p.isAtomic with
    | true =>
      rw [hatomic] at hbuilt
      obtain ⟨haddr, hsize⟩ := of_nextIncrement hbuilt
      exact ⟨hsize, haddr⟩
    | false =>
      rw [hatomic] at hbuilt
      obtain ⟨raw, haddr, hsize⟩ := of_nextAccess hbuilt hq
      exact ⟨hsize, raw, haddr⟩
  · cases h

end Generator

/-! ### When transactions keep to their places -/

/-- An access whose size is a power of two, and which starts at a multiple of it
wherever lines are not smaller, keeps to a line if it is not larger. -/
theorem Transaction.keepsToLine_iff {t : Transaction} {lineSize : Nat}
    (hline : isPowerOfTwo lineSize = true)
    (hsize : isPowerOfTwo t.size = true) (haddr : t.size ≤ lineSize → t.size ∣ t.addr) :
    t.KeepsToLine lineSize ↔ t.size ≤ lineSize := by
  constructor
  · intro h
    exact Nat.le_trans (Nat.le_add_left _ _) h
  · intro hle
    have hdvd := dvd_of_isPowerOfTwo hsize hline hle
    exact add_le_of_dvd_of_lt ((Nat.dvd_mod_iff hdvd).mpr (haddr hle)) hdvd
      (Nat.mod_lt _ (pos_of_isPowerOfTwo hline))

/-- A zone that holds an access is not empty. -/
theorem Zone.Holds.bytes_pos {z : Zone} {t : Transaction} (h : z.Holds t) (hpos : 0 < t.size) :
    0 < z.bytes := by
  obtain ⟨hstart, hstop⟩ := h
  omega

/-- **Where lines are not smaller than its accesses**, what a generator builds
for a pattern starts at a multiple of its size, and is in its zone unless that
is empty. -/
theorem Generator.placed_of_built {g : Generator} {set : PatternSet} {p : Pattern}
    {txn : Transaction} {config : TrafficConfig} {ports lineSize : Nat} {spec : PatternSpec}
    (hbuilt : g.built? set = some (p, txn)) (hspec : Pattern.ofSpec config ports spec = .ok p)
    (hlayout : g.layout = config.layout) (hline : isPowerOfTwo lineSize = true)
    (haligned : config.layout.Aligned lineSize) (hle : p.accessBytes ≤ lineSize) :
    p.accessBytes ∣ txn.addr ∧ (0 < (p.zone config.layout g.numPorts lineSize g.port).bytes →
      (p.zone config.layout g.numPorts lineSize g.port).Holds txn) := by
  obtain ⟨-, hsize, haddr⟩ := of_built hbuilt
  unfold Pattern.zone Zone.Holds
  rw [hsize, ← hlayout]
  unfold Pattern.accessBytes at hle ⊢
  rw [← hlayout] at haligned
  cases hatomic : p.isAtomic with
  | true =>
    rw [hatomic] at haddr hle
    simp only [if_true] at haddr hle ⊢
    rw [haddr]
    -- the line of the counter starts where the last private region ends
    have hcounter : lineSize ∣ g.layout.counterAddr g.numPorts :=
      haligned.dvd_privateBase g.numPorts
    exact ⟨Nat.dvd_trans (dvd_of_isPowerOfTwo (by decide) hline hle) hcounter,
      fun _ => ⟨Nat.le_refl _, Nat.add_le_add_left hle _⟩⟩
  | false =>
    rw [hatomic] at haddr hle
    simp only [Bool.false_eq_true, if_false] at haddr hle ⊢
    obtain ⟨raw, haddr⟩ := haddr
    obtain ⟨hpow, -⟩ := Pattern.of_ofSpec hspec
    have hdvd := dvd_of_isPowerOfTwo hpow hline hle
    rw [haddr]
    refine ⟨Nat.dvd_add (Nat.dvd_trans hdvd (haligned.dvd_startOf g.port p.region))
      (Pattern.dvd_place hpow raw), fun hpos => ?_⟩
    -- a region that is not empty holds a line, and so an access
    have hregion : lineSize ≤ config.layout.bytesOf p.region := by
      rw [← hlayout]
      exact Nat.le_of_dvd hpos (haligned.dvd_bytesOf p.region)
    have hfits := Pattern.fits_ofSpec hspec hle hregion
    rw [← hlayout] at hfits
    exact (hfits.covers_place hline haligned g.port raw).1

/-- **When layouts are sound.**  Take a simulation that was set up, and a
transaction that a generator with its layout builds, for any of the patterns, on
any port, and however far it has come.  The transaction keeps to one line
exactly if an access of the pattern is not larger than a line.  It keeps to one
line and to the place where it is meant to go, exactly if moreover that place is
not empty. -/
theorem layout_sound_iff {s : Settings} {level : Level} {sim : Simulation}
    (hnew : Simulation.new s level = .ok sim) {g : Generator} (hlayout : g.layout = sim.layout)
    (hports : g.numPorts = sim.numPorts) {p : Pattern} {txn : Transaction}
    (hbuilt : g.built? sim.set = some (p, txn)) :
    let zone := p.zone sim.layout sim.numPorts s.allocator.lineSize g.port
    (txn.KeepsToLine s.allocator.lineSize ↔ p.accessBytes ≤ s.allocator.lineSize) ∧
      (txn.KeepsToLine s.allocator.lineSize ∧ zone.Holds txn ↔
        p.accessBytes ≤ s.allocator.lineSize ∧ 0 < zone.bytes) := by
  intro zone
  have hbegins := Simulation.begins_of_new hnew
  obtain ⟨-, hbase, hshared, hprivate, -, -⟩ := Simulation.of_checkSettings hbegins.checked
  have hline := AllocatorConfig.isPowerOfTwo_of_check (Allocator.eq_of_new hbegins.allocator).1
  obtain ⟨hmem, hsize, -⟩ := Generator.of_built hbuilt
  obtain ⟨spec, hspec⟩ := PatternSet.of_ofConfig hbegins.patterns p hmem
  have hplaced := Generator.placed_of_built hbuilt hspec (hlayout.trans hbegins.layout_eq) hline
    ⟨hbase, hshared, hprivate⟩
  rw [← hbegins.layout_eq, hports] at hplaced
  have hpow : isPowerOfTwo txn.size = true := by
    rw [hsize]
    unfold Pattern.accessBytes
    split
    · decide
    · exact (Pattern.of_ofSpec hspec).1
  have hkeeps : txn.KeepsToLine s.allocator.lineSize ↔
      p.accessBytes ≤ s.allocator.lineSize := by
    rw [← hsize]
    exact Transaction.keepsToLine_iff hline hpow fun hle => hsize ▸ (hplaced (hsize ▸ hle)).1
  refine ⟨hkeeps, ?_⟩
  rw [hkeeps]
  constructor
  · rintro ⟨hle, hholds⟩
    exact ⟨hle, hholds.bytes_pos (pos_of_isPowerOfTwo hpow)⟩
  · rintro ⟨hle, hpos⟩
    exact ⟨hle, (hplaced hle).2 hpos⟩

/-- Two ports store once each, into private regions of one line. -/
def privateStores : Settings where
  simulation := {}
  allocator := { numPorts := 2, lineSize := 8 }
  memory := { memoryBytes := 64 }
  traffic := {
    reqsPerPattern := 1, layout := ⟨0, 8, 8⟩, printLines := false,
    patterns := [{ kind := "strided", op := "write" }] }

/-- Every generator builds a store first, which keeps to a line and to the
region of its port. -/
theorem layout_sound_iff_privateStores : ∃ sim, Simulation.new privateStores .warn = .ok sim ∧
    sim.generators.length = 2 ∧ ∀ g ∈ sim.generators, ∃ p txn,
    g.built? sim.set = some (p, txn) ∧
      txn.KeepsToLine 8 ∧ (p.zone sim.layout sim.numPorts 8 g.port).Holds txn := by
  obtain ⟨sim, hnew, hsim⟩ := exists_of_any (x := Simulation.new privateStores .warn)
    (p := fun sim => sim.generators.length == 2 && sim.generators.all fun g =>
      g.layout == sim.layout && g.numPorts == sim.numPorts &&
        (g.built? sim.set).any fun b : Pattern × Transaction =>
          decide (b.1.accessBytes ≤ 8 ∧ 0 < (b.1.zone sim.layout sim.numPorts 8 g.port).bytes))
    (by decide +kernel)
  simp only [Bool.and_eq_true, beq_iff_eq, List.all_eq_true] at hsim
  obtain ⟨htwo, hall⟩ := hsim
  refine ⟨sim, hnew, htwo, fun g hg => ?_⟩
  obtain ⟨⟨hlayout, hports⟩, hbuilt⟩ := hall g hg
  obtain ⟨⟨p, txn⟩, hbuilt, hcondition⟩ := (Option.any_eq_true _ _).mp hbuilt
  exact ⟨p, txn, hbuilt,
    (layout_sound_iff hnew hlayout hports hbuilt).2.mpr (of_decide_eq_true hcondition)⟩

/-- The same with private regions of no bytes. -/
def homelessStores : Settings :=
  { privateStores with traffic := { privateStores.traffic with layout := ⟨0, 8, 0⟩ } }

/-- **Layouts are accepted in which transactions go astray**: with private
regions of no bytes, all ports store to the line of the counter. -/
theorem layout_accepted_unsound : ¬ ∀ (s : Settings) (level : Level) (sim : Simulation),
    Simulation.new s level = .ok sim → ∀ g ∈ sim.generators, ∀ p txn,
    g.built? sim.set = some (p, txn) →
    txn.KeepsToLine s.allocator.lineSize ∧
      (p.zone sim.layout sim.numPorts s.allocator.lineSize g.port).Holds txn := by
  intro hclaim
  obtain ⟨sim, hnew, hsim⟩ := exists_of_any (x := Simulation.new homelessStores .warn)
    (p := fun sim => sim.generators.any fun g =>
      (g.built? sim.set).any fun b : Pattern × Transaction =>
      !decide ((b.1.zone sim.layout sim.numPorts 8 g.port).Holds b.2)) (by decide +kernel)
  obtain ⟨g, hg, hbuilt⟩ := List.any_eq_true.mp hsim
  obtain ⟨⟨p, txn⟩, hbuilt, hastray⟩ := (Option.any_eq_true _ _).mp hbuilt
  rw [Bool.not_eq_true', decide_eq_false_iff_not] at hastray
  exact hastray (hclaim _ _ sim hnew g hg p txn hbuilt).2

end MemPort
