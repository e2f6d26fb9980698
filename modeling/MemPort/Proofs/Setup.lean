import MemPort.Proofs.Cycles
import MemPort.Simulation.Run

/-!
# The start of a simulation

Settings that are accepted describe regions of whole lines that lie in the
memory, and patterns whose accesses fit them, if a line holds the counter, every
region holds a line, every access fits a line and all places are words.  Before
the first cycle the shared region is filled, and then the generators and the
memory fit together.

## Main definitions

* `Settings.Regular` — what settings have to be like beyond being accepted.
* `Simulation.Begins` — what a simulation is made of before its first cycle.
* `Scenario.Of` — the regions and the patterns are those of some settings.
* `Filled` — what filling the shared region leaves as it was.

## Main results

* `Simulation.exists_scenario` — the regions and the patterns of a new
  simulation make a scenario.
* `Simulation.wired_preload` — the shared region is filled.

## References

`SPEC_FULL.md`, section 10.7: the layout, and the shared region that is filled
before the first cycle.
-/

namespace MemPort

/-- Settings under which every access keeps to its line and every address is a
word. -/
structure Settings.Regular (s : Settings) (set : PatternSet) : Prop where
  /-- A line holds the counter. -/
  counter_le : Generator.counterBytes ≤ s.allocator.lineSize
  /-- The shared region has a line. -/
  shared_le : s.allocator.lineSize ≤ s.traffic.layout.sharedBytes
  /-- A private region has a line. -/
  private_le : s.allocator.lineSize ≤ s.traffic.layout.privateBytes
  /-- An access is not larger than a line. -/
  reqBytes_le : ∀ p ∈ set.patterns, p.reqBytes ≤ s.allocator.lineSize
  /-- The places of all accesses are words. -/
  placed : ∀ p ∈ set.patterns, ∀ req < set.reqsPerPattern, ∀ port < s.allocator.numPorts,
    (p.rawOffset? set.ports set.reqsPerPattern req port).isSome = true

instance (s : Settings) (set : PatternSet) : Decidable (s.Regular set) :=
  decidable_of_iff (Generator.counterBytes ≤ s.allocator.lineSize ∧
      s.allocator.lineSize ≤ s.traffic.layout.sharedBytes ∧
      s.allocator.lineSize ≤ s.traffic.layout.privateBytes ∧
      (∀ p ∈ set.patterns, p.reqBytes ≤ s.allocator.lineSize) ∧
      ∀ p ∈ set.patterns, ∀ req < set.reqsPerPattern, ∀ port < s.allocator.numPorts,
        (p.rawOffset? set.ports set.reqsPerPattern req port).isSome = true)
    ⟨fun ⟨hcounter, hshared, hprivate, hreqs, hplaced⟩ =>
      ⟨hcounter, hshared, hprivate, hreqs, hplaced⟩,
      fun h => ⟨h.counter_le, h.shared_le, h.private_le, h.reqBytes_le, h.placed⟩⟩

/-- Every region has a line. -/
theorem Settings.Regular.le_bytesOf {s : Settings} {set : PatternSet} (h : s.Regular set)
    (region : Region) :
    s.allocator.lineSize ≤ s.traffic.layout.bytesOf region := by
  cases region with
  | sharedRegion => exact h.shared_le
  | privateRegion => exact h.private_le

/-! ### What was accepted -/

theorem exists_of_mapError_eq_ok {ε ε' α : Type} {f : ε → ε'} {x : Except ε α} {a : α}
    (h : x.mapError f = .ok a) : x = .ok a := by
  cases x with
  | error e => cases h
  | ok b =>
    cases h
    rfl

/-- What is computed of a result. -/
theorem exists_of_any {ε α : Type} {x : Except ε α} {p : α → Bool}
    (h : x.toOption.any p = true) :
    ∃ a, x = .ok a ∧ p a = true := by
  cases x with
  | error e => cases h
  | ok a => exact ⟨a, rfl, h⟩

/-- What a pattern is made of. -/
theorem Pattern.parts_of_ofSpec {config : TrafficConfig} {ports : Nat} {spec : PatternSpec}
    {p : Pattern} (h : Pattern.ofSpec config ports spec = .ok p) :
    p.reqBytes = max spec.reqBytes 1 ∧ isPowerOfTwo p.reqBytes = true ∧
      Region.resolve p.op spec.region = .ok p.region ∧
      p.window = max (min
        (spec.withinBytes.getD
          (if foldWord spec.kind = "hot_line" then 64 else config.layout.bytesOf p.region))
        (config.layout.bytesOf p.region)) p.reqBytes ∧
      Pattern.shapeOf spec (foldWord spec.kind) p.window p.reqBytes
        (ports * max config.reqsPerPattern 1) = .ok p.shape := by
  unfold Pattern.ofSpec at h
  simp only at h
  split at h
  · cases h
  rename_i hpow
  rw [Bool.not_eq_true', Bool.not_eq_false] at hpow
  obtain ⟨op, -, h⟩ := exists_of_bind_eq_ok h
  obtain ⟨region, hregion, h⟩ := exists_of_bind_eq_ok h
  obtain ⟨shape, hshape, heq⟩ := exists_of_bind_eq_ok h
  cases heq
  exact ⟨rfl, hpow, hregion, by cases region <;> rfl, hshape⟩

/-- What a pattern that was made is like: its window is cut to the region,
unless that holds no access. -/
theorem Pattern.of_ofSpec {config : TrafficConfig} {ports : Nat} {spec : PatternSpec} {p : Pattern}
    (h : Pattern.ofSpec config ports spec = .ok p) :
    isPowerOfTwo p.reqBytes = true ∧ 0 < p.window ∧
      p.window ≤ max (config.layout.bytesOf p.region) p.reqBytes ∧
      (p.op.isStore = true → p.region = .privateRegion) := by
  obtain ⟨hreq, hpow, hregion, hwindow, -⟩ := parts_of_ofSpec h
  refine ⟨hpow, ?_, ?_, fun hstore => ?_⟩
  · rw [hwindow, hreq]
    exact Nat.lt_of_lt_of_le (Nat.lt_of_lt_of_le Nat.zero_lt_one (Nat.le_max_right _ _))
      (Nat.le_max_right _ _)
  · rw [hwindow]
    exact Nat.max_le.mpr
      ⟨Nat.le_trans (Nat.min_le_right _ _) (Nat.le_max_left _ _), Nat.le_max_right _ _⟩
  -- a store is private by default, and refused where it names the shared region
  · unfold Region.resolve at hregion
    split at hregion
    · rw [if_pos hstore] at hregion
      exact (Except.ok.inj hregion).symm
    · split at hregion
      · exact (Except.ok.inj hregion).symm
      · rw [if_pos hstore] at hregion
        cases hregion
      · cases hregion

theorem Pattern.fits_ofSpec {config : TrafficConfig} {ports lineSize : Nat} {spec : PatternSpec}
    {p : Pattern} (h : Pattern.ofSpec config ports spec = .ok p) (hline : p.reqBytes ≤ lineSize)
    (hregion : lineSize ≤ config.layout.bytesOf p.region) : p.Fits config.layout lineSize := by
  obtain ⟨hsize, hpos, hwindow, hown⟩ := of_ofSpec h
  rw [Nat.max_eq_left (Nat.le_trans hline hregion)] at hwindow
  exact ⟨hsize, hline, hpos, hwindow, hown⟩

theorem PatternSet.exists_spec {config : TrafficConfig} {ports index : Nat}
    {specs : List PatternSpec} {patterns : List Pattern}
    (h : compile config ports index specs = .ok patterns) :
    ∀ p ∈ patterns, ∃ spec, Pattern.ofSpec config ports spec = .ok p := by
  induction specs generalizing index patterns with
  | nil =>
    cases h
    nofun
  | cons spec rest ih =>
    unfold compile at h
    split at h
    · cases h
    · rename_i p hp
      obtain ⟨ps, hrest, rfl⟩ := exists_of_map_eq_ok h
      intro q hq
      rcases List.mem_cons.mp hq with rfl | hq
      · exact ⟨spec, hp⟩
      · exact ih hrest q hq

theorem PatternSet.of_ofConfig {config : TrafficConfig} {ports : Nat} {set : PatternSet}
    (h : ofConfig config ports = .ok set) :
    ∀ p ∈ set.patterns, ∃ spec, Pattern.ofSpec config (max ports 1) spec = .ok p := by
  obtain ⟨patterns, hcompiled, rfl⟩ := exists_of_map_eq_ok h
  exact exists_spec hcompiled

/-- A memory that can be had starts with its own parts new, and nothing else. -/
theorem DelayedMemory.new_eq_ok {config : MemoryConfig} {d : DelayedMemory}
    (h : DelayedMemory.new config = .ok d) :
    isPowerOfTwo config.reservationBytes = true ∧ ∃ memory inflight,
      Memory.new config.memoryBytes = .ok memory ∧
      TimedQueue.new ⟨config.latency, config.capacity⟩ = .ok inflight ∧
      d = {
        config, memory, inflight
        reservations := ∅
        oweRetry := false
        responseBlocked := false
        fault := none
        stats := {} } := by
  unfold DelayedMemory.new at h
  simp only at h
  split at h
  · cases h
  split at h
  · cases h
  rename_i hgranule
  rw [Bool.not_eq_true', Bool.not_eq_false] at hgranule
  obtain ⟨memory, hmemory, h⟩ := exists_of_bind_eq_ok h
  obtain ⟨inflight, hinflight, heq⟩ := exists_of_bind_eq_ok h
  cases heq
  exact ⟨hgranule, memory, inflight, hmemory, hinflight, rfl⟩

/-- The bytes of a new memory fit the storage. -/
theorem DelayedMemory.memoryBytes_lt_of_new {config : MemoryConfig} {d : DelayedMemory}
    (h : DelayedMemory.new config = .ok d) : config.memoryBytes < storageBytes := by
  obtain ⟨-, memory, -, hmemory, -⟩ := new_eq_ok h
  unfold Memory.new at hmemory
  split at hmemory
  · cases hmemory
  · rename_i hfits
    exact Nat.not_le.mp hfits

/-- A new memory is empty, and has nothing in flight. -/
theorem DelayedMemory.of_new {config : MemoryConfig} {d : DelayedMemory}
    (h : DelayedMemory.new config = .ok d) :
    isPowerOfTwo config.reservationBytes = true ∧ d.config = config ∧
      d.memory = .ofSize config.memoryBytes (decide_eq_true (memoryBytes_lt_of_new h)) ∧
      d.heldBack = [] ∧
      d.reservations = ∅ ∧ d.fault = none := by
  obtain ⟨hgranule, memory, inflight, hmemory, hinflight, rfl⟩ := new_eq_ok h
  refine ⟨hgranule, rfl, ?_, ?_, rfl, rfl⟩
  · unfold Memory.new at hmemory
    split at hmemory
    · cases hmemory
    · cases hmemory
      rfl
  · unfold DelayedMemory.heldBack
    rw [TimedQueue.eq_of_new hinflight]
    rfl

/-- The regions and the patterns are those of some settings. -/
structure Scenario.Of (w : Scenario) (s : Settings) (set : PatternSet) : Prop where
  /-- The regions lie where the settings say. -/
  layout_eq : w.layout = s.traffic.layout
  /-- There are as many ports. -/
  numPorts_eq : w.numPorts = s.allocator.numPorts
  /-- Lines have the same size. -/
  lineSize_eq : w.lineSize = s.allocator.lineSize
  /-- The patterns are those given. -/
  set_eq : w.set = set
  /-- A port may have as many accesses in flight. -/
  maxInflight_eq : w.maxInflight = max s.traffic.maxInflight 1

/-- What a simulation is made of before its first cycle. -/
structure Simulation.Begins (sim : Simulation) (s : Settings) : Prop where
  /-- The settings were accepted. -/
  checked : checkSettings s = .ok ()
  /-- The settings of the simulation itself are those given. -/
  config_eq : sim.config = s.simulation
  /-- The regions lie where the settings say. -/
  layout_eq : sim.layout = s.traffic.layout
  /-- There are as many ports. -/
  numPorts_eq : sim.numPorts = s.allocator.numPorts
  /-- The patterns are those given. -/
  patterns : PatternSet.ofConfig s.traffic s.allocator.numPorts = .ok sim.set
  /-- Every port has a new generator. -/
  generators : sim.generators = (List.range s.allocator.numPorts).map fun port =>
    .new port s.allocator.numPorts s.traffic sim.set
  /-- The allocator is new. -/
  allocator : Allocator.new s.allocator = .ok sim.assembly.allocator
  /-- The memory is new. -/
  memory : DelayedMemory.new s.memory = .ok sim.memory

namespace Simulation

/-- What settings that are accepted are like. -/
theorem of_checkSettings {s : Settings} (h : checkSettings s = .ok ()) :
    0 < s.allocator.numPorts ∧ s.allocator.lineSize ∣ s.traffic.layout.base ∧
      s.allocator.lineSize ∣ s.traffic.layout.sharedBytes ∧
      s.allocator.lineSize ∣ s.traffic.layout.privateBytes ∧
      s.traffic.layout.stop s.allocator.numPorts s.allocator.lineSize ≤ maxWord ∧
      s.traffic.layout.stop s.allocator.numPorts s.allocator.lineSize ≤ s.memory.memoryBytes := by
  unfold checkSettings at h
  simp only at h
  split at h
  · cases h
  · rename_i hports
    split at h
    · cases h
    · split at h
      · cases h
      · rename_i haligned
        -- the check is one conjunction of three remainders
        unfold isAligned at haligned
        simp only [List.all_cons, List.all_nil, Bool.and_true, Bool.not_eq_true',
          Bool.and_eq_false_iff,
          beq_eq_false_iff_ne, ne_eq, not_or, Decidable.not_not] at haligned
        obtain ⟨hbase, hshared, hprivate⟩ := haligned
        unfold checkLayout RegionLayout.checkedStop at h
        split at h
        · cases h
        · rename_i stop hstop
          split at hstop
          · rename_i hword
            cases hstop
            split at h
            · cases h
            · rename_i hfits
              exact ⟨Nat.pos_of_ne_zero hports, Nat.dvd_of_mod_eq_zero hbase,
                Nat.dvd_of_mod_eq_zero hshared, Nat.dvd_of_mod_eq_zero hprivate, hword,
                Nat.le_of_not_lt hfits⟩
          · cases hstop

/-- **What a new simulation is made of.** -/
theorem begins_of_new {s : Settings} {level : Level} {sim : Simulation}
    (h : Simulation.new s level = .ok sim) : sim.Begins s := by
  unfold Simulation.new at h
  obtain ⟨_, hcheck, h⟩ := exists_of_bind_eq_ok h
  obtain ⟨set, hset, h⟩ := exists_of_bind_eq_ok h
  obtain ⟨allocator, hallocator, h⟩ := exists_of_bind_eq_ok h
  obtain ⟨memory, hmemory, heq⟩ := exists_of_bind_eq_ok h
  cases heq
  exact ⟨hcheck, rfl, rfl, rfl, exists_of_mapError_eq_ok hset, rfl,
    exists_of_mapError_eq_ok hallocator, exists_of_mapError_eq_ok hmemory⟩

/-- **The regions and the patterns of a new simulation make a scenario.** -/
theorem exists_scenario {s : Settings} {level : Level} {sim : Simulation}
    (hnew : Simulation.new s level = .ok sim) (hregular : s.Regular sim.set) :
    ∃ w : Scenario, w.Of s sim.set := by
  have hbegins := begins_of_new hnew
  obtain ⟨-, hbase, hshared, hprivate, hstop, -⟩ := of_checkSettings hbegins.checked
  have hspecs := PatternSet.of_ofConfig hbegins.patterns
  have hline := AllocatorConfig.isPowerOfTwo_of_check (Allocator.eq_of_new hbegins.allocator).1
  -- every field is a check `new` has made, but for the ones `Regular` adds
  exact ⟨{
    layout := s.traffic.layout
    numPorts := s.allocator.numPorts
    lineSize := s.allocator.lineSize
    set := sim.set
    maxInflight := max s.traffic.maxInflight 1
    isPowerOfTwo_lineSize := hline
    counter_le := hregular.counter_le
    dvd_base := hbase
    dvd_shared := hshared
    dvd_private := hprivate
    stop_le := hstop
    fits := fun p hp => by
      obtain ⟨spec, hspec⟩ := hspecs p hp
      exact Pattern.fits_ofSpec hspec (hregular.reqBytes_le p hp) (hregular.le_bytesOf p.region)
    placed := hregular.placed
    maxInflight_pos := Nat.lt_of_lt_of_le Nat.zero_lt_one (Nat.le_max_right _ _) },
    ⟨rfl, rfl, rfl, rfl, rfl⟩⟩

end Simulation

/-! ### The shared region is filled -/

namespace ByteMap

/-- Bytes that depend on their addresses only, put at consecutive addresses. -/
theorem byteAt_store_span (m : ByteMap) (addr count : Nat) (f : Nat → UInt8) (a : Nat) :
    (m.store addr ((span addr count).map f)).byteAt a =
      if addr ≤ a ∧ a < addr + count then f a else m.byteAt a := by
  rw [byteAt_store]
  by_cases hle : addr ≤ a
  · rw [if_pos hle]
    by_cases hlt : a < addr + count
    · have hi : a - addr < count := by omega
      have hback : addr + (a - addr) = a := by omega
      rw [if_pos ⟨hle, hlt⟩]
      unfold span
      simp [hi, hback]
    · have hi : count ≤ a - addr := by omega
      rw [if_neg fun h => hlt h.2]
      unfold span
      simp [hi]
  · rw [if_neg hle, if_neg fun h => hle h.1]

end ByteMap

/-- An access that starts where a line starts, and is not larger, fits the line. -/
theorem checkLineFit_of_dvd {t : Transaction} {lineSize : Nat} (port : Nat)
    (hline : isPowerOfTwo lineSize = true) (hdvd : lineSize ∣ t.addr)
    (hle : t.size ≤ lineSize) :
    checkLineFit port t lineSize = .ok () := by
  have hbase : blockBase t.addr lineSize = t.addr := by
    rw [blockBase_eq_mul hline, Nat.mul_div_cancel' hdvd]
  have hreach : satAdd t.addr t.size ≤ t.addr + t.size := Nat.min_le_left _ _
  unfold checkLineFit Transaction.stop
  simp only [hbase]
  rw [if_neg]
  omega

/-- A store inside the memory is performed at once. -/
theorem DelayedMemory.access_write (d : DelayedMemory) (request : BackendRequest)
    (hcmd : request.cmd = .write) (hpos : 0 < request.data.length)
    (hin : request.addr + request.data.length ≤ d.memory.size) :
    d.access request = .ok (.quiet (⟨request.id, [], true⟩,
      ({ d with
          memory := { d.memory with
            contents := d.memory.contents.store request.addr request.data } } :
        DelayedMemory).clearReservations request.addr request.size)) := by
  unfold access perform storeFor Memory.write
  rw [hcmd, (Memory.check_eq_ok_iff _ _ _).mpr ⟨hpos, hin⟩]
  rfl

theorem DelayedMemory.clearReservations_of_empty {d : DelayedMemory} (h : d.reservations = ∅)
    (addr size : Nat) : (d.clearReservations addr size).reservations = ∅ := by
  unfold clearReservations
  simp only [h]
  rfl

/-- What filling the shared region leaves as it was. -/
structure Filled (m m' : Plant) : Prop where
  /-- Only counters of the allocator change. -/
  allocator : ∃ stats lastActive, m'.allocator = { m.allocator with stats, lastActive }
  /-- The generators are only told of stores. -/
  core : (Plant.lanes m').map Generator.core = (Plant.lanes m).map Generator.core
  /-- None of them begins or ceases to wait. -/
  blocked : (Plant.lanes m').map (·.blocked) = (Plant.lanes m).map (·.blocked)
  /-- The memory keeps its settings. -/
  config : (Plant.memory m').config = (Plant.memory m).config
  /-- It keeps its size. -/
  size : (Plant.memory m').memory.size = (Plant.memory m).memory.size
  /-- Nothing is reserved. -/
  reservations : (Plant.memory m).reservations = ∅ → (Plant.memory m').reservations = ∅
  /-- Nothing is found wrong. -/
  fault : (Plant.memory m').fault = (Plant.memory m).fault
  /-- No answer is held back or let go. -/
  heldBack : (Plant.memory m').heldBack = (Plant.memory m).heldBack

namespace Filled

variable {m m' m'' : Plant}

theorem refl (m : Plant) : Filled m m := ⟨⟨_, _, rfl⟩, rfl, rfl, rfl, rfl, id, rfl, rfl⟩

theorem trans (h : Filled m m') (h' : Filled m' m'') : Filled m m'' := by
  obtain ⟨stats, lastActive, ha⟩ := h.allocator
  obtain ⟨stats', lastActive', ha'⟩ := h'.allocator
  refine ⟨⟨stats', lastActive', ?_⟩, h'.core.trans h.core, h'.blocked.trans h.blocked,
    h'.config.trans h.config, h'.size.trans h.size, fun hr => h'.reservations (h.reservations hr),
    h'.fault.trans h.fault, h'.heldBack.trans h.heldBack⟩
  rw [ha', ha]

end Filled

/-- A line of the shared region. -/
structure Scenario.SharedLine (w : Scenario) (addr : Nat) : Prop where
  /-- It starts where lines start. -/
  dvd : w.lineSize ∣ addr
  /-- It is not before the region. -/
  base_le : w.layout.base ≤ addr
  /-- It is not behind the region. -/
  le_stop : addr + w.lineSize ≤ w.layout.base + w.layout.sharedBytes

namespace Scenario.SharedLine

variable {w : Scenario} {addr : Nat}

/-- It does not concern any private region. -/
theorem farFrom (h : w.SharedLine addr) (size : Nat) :
    w.FarFrom (Command.write.snoop? addr size 0) := by
  have hstop := h.le_stop
  have hpos := pos_of_isPowerOfTwo w.isPowerOfTwo_lineSize
  rintro snoop hsnoop port - -
  cases hsnoop
  rw [Bool.eq_false_iff]
  intro howns
  simp only [RegionLayout.owns, Bool.and_eq_true, decide_eq_true_eq] at howns
  unfold RegionLayout.privateBase at howns
  omega

theorem le_size (h : w.SharedLine addr) : addr + w.lineSize ≤ w.stop := by
  have hstop := h.le_stop
  unfold stop RegionLayout.stop RegionLayout.counterAddr RegionLayout.privateBase
  omega

end Scenario.SharedLine

namespace Plant

variable {w : Scenario} {m : Plant}

/-- A line of the shared region is filled past the queues. -/
theorem filled_line {addr : Nat} {data : Bytes} (hplaced : Placed w m.lanes)
    (hports : 0 < m.allocator.ports.length) (hline : m.allocator.config.lineSize = w.lineSize)
    (hsize : w.stop ≤ m.memory.memory.size) (haddr : w.SharedLine addr)
    (hdata : data.length = w.lineSize) :
    ∃ r m', m.accessFunctional 0 0 (.store .write functionalId addr data) = .ok r m' ∧
    Filled m m' ∧
      (Plant.memory m').memory.contents = m.memory.memory.contents.store addr data := by
  have hpos := pos_of_isPowerOfTwo w.isPowerOfTwo_lineSize
  unfold Assembly.accessFunctional
  rw [if_neg (Nat.not_le.mpr hports), hline,
    checkLineFit_of_dvd 0 w.isPowerOfTwo_lineSize haddr.dvd (Nat.le_of_eq hdata)]
  simp only
  generalize hnoted : m.note (.functional 0 (.store .write functionalId addr data)) = m₀
  have ha₀ : m₀.allocator = m.allocator := hnoted ▸ rfl
  have hs₀ : m₀.surroundings = m.surroundings := hnoted ▸ rfl
  have hplaced₀ : Placed w m₀.surroundings.1.lanes := hs₀ ▸ hplaced
  -- no generator owns the line, so the snoop of the store breaks none of them
  rcases Assembly.snooped_broadcast? m₀ (Command.write.snoop? addr data.length 0) with
    ⟨m₁, hsent, ⟨stats, ha₁⟩, hsnooped⟩ | ⟨a, m₁, -, hbreaks⟩
  · obtain ⟨hmemory, hcore, hblocked⟩ :=
      hplaced₀.snooped (haddr.farFrom data.length) hsnooped
    rw [hs₀] at hmemory hcore hblocked
    have hsent : m₀.broadcast? ((Transaction.store .write functionalId addr data).cmd.snoop?
        (Transaction.store .write functionalId addr data).addr
        (Transaction.store .write functionalId addr data).size 0) = .ok () m₁ := hsent
    have hin : addr + data.length ≤ m₁.surroundings.2.memory.size := by
      rw [hmemory, hdata]
      exact Nat.le_trans haddr.le_size hsize
    -- the store is then performed by the memory alone
    have hperformed :=
      m₁.surroundings.2.access_write ⟨functionalId, 0, .write, addr, data.length, data⟩
      rfl (hdata ▸ hpos) hin
    have hdef : Backend.accessFunctional (⟨functionalId, 0, .write, addr, data.length, data⟩ :
          BackendRequest) m₁.surroundings =
        (m₁.surroundings.2.access ⟨functionalId, 0, .write, addr, data.length, data⟩).map
          fun l => l.map fun r => (r.1, (m₁.surroundings.1, r.2)) := rfl
    rw [hsent]
    simp only [Transaction.store, hdef, hperformed]
    rw [hmemory]
    refine ⟨_, _, rfl,
      ⟨⟨stats.recordFunctional, 0, ?_⟩, hcore, hblocked, rfl, rfl, fun hfree => ?_, rfl,
      rfl⟩, rfl⟩
    · show ({ m₁.allocator with
          stats := m₁.allocator.stats.recordFunctional, lastActive := 0 } : Allocator) = _
      rw [ha₁, ha₀]
    · exact DelayedMemory.clearReservations_of_empty hfree addr data.length
  · exact absurd hbreaks (hplaced₀.not_breaksOver (haddr.farFrom data.length))

end Plant

namespace Simulation

variable {w : Scenario}

/-- **Lines of the shared region are filled**, and no other byte changes. -/
theorem exists_fillLines {addrs : List Nat} {s : Simulation} (hplaced : Placed w s.generators)
    (hports : 0 < s.assembly.allocator.ports.length)
    (hline : s.assembly.allocator.config.lineSize = w.lineSize)
    (hsize : w.stop ≤ s.memory.memory.size) (haddrs : ∀ addr ∈ addrs, w.SharedLine addr) :
    ∃ m, s.fillLines w.lineSize addrs = .ok () { s with assembly := m } ∧
    Filled s.assembly m ∧
      ∀ a, (Plant.memory m).memory.contents.byteAt a =
        if ∃ addr ∈ addrs, addr ≤ a ∧ a < addr + w.lineSize then fillByte a
        else s.memory.memory.contents.byteAt a := by
  -- a byte gets the same filling from every line that it lies in
  induction addrs generalizing s with
  | nil => exact ⟨s.assembly, rfl, .refl _, fun a => (if_neg nofun).symm⟩
  | cons addr rest ih =>
    have hdata : ((span addr w.lineSize).map fillByte).length = w.lineSize := by
      rw [List.length_map, length_span]
    obtain ⟨r, m₁, hok, hfilled, hcontents⟩ :=
      Plant.filled_line (m := s.assembly) hplaced hports hline
      hsize (haddrs addr List.mem_cons_self) hdata
    obtain ⟨stats, lastActive, ha⟩ := hfilled.allocator
    obtain ⟨m, hrest, hfilled', hbytes⟩ := ih (s := { s with assembly := m₁ })
      (hplaced.of_core hfilled.core) (by rw [ha]; exact hports) (by rw [ha]; exact hline)
      (hfilled.size ▸ hsize) fun a ha => haddrs a (List.mem_cons_of_mem _ ha)
    refine ⟨m, ?_, hfilled.trans hfilled', fun a => ?_⟩
    · unfold fillLines
      simp only [hok]
      exact hrest
    · have hfirst : (Plant.memory m₁).memory.contents.byteAt a =
          if addr ≤ a ∧ a < addr + w.lineSize then fillByte a
          else s.memory.memory.contents.byteAt a := by
        rw [hcontents]
        exact ByteMap.byteAt_store_span _ _ _ _ _
      have hfirst :
          ({ s with assembly := m₁ } : Simulation).memory.memory.contents.byteAt a = _ := hfirst
      rw [hbytes, hfirst]
      simp only [List.exists_mem_cons_iff]
      by_cases hin : addr ≤ a ∧ a < addr + w.lineSize
      · rw [if_pos hin, if_pos (Or.inl hin), ite_self]
      · rw [if_neg hin]
        simp only [hin, false_or]

/-- The lines that are filled are those of the shared region. -/
theorem mem_sharedLines {s : Simulation} (hlayout : s.layout = w.layout) {addr : Nat} :
    addr ∈ s.sharedLines w.lineSize ↔ w.SharedLine addr := by
  have hpos := pos_of_isPowerOfTwo w.isPowerOfTwo_lineSize
  obtain ⟨lines, hlines⟩ := w.dvd_shared
  obtain ⟨start, hstart⟩ := w.dvd_base
  -- the region is a whole number of lines, so rounding up changes nothing
  have hcount : (s.layout.sharedBytes + w.lineSize - 1) / w.lineSize = lines := by
    rw [hlayout, hlines, Nat.add_sub_assoc hpos, Nat.mul_add_div hpos,
      Nat.div_eq_of_lt (Nat.sub_lt hpos Nat.zero_lt_one), Nat.add_zero]
  unfold sharedLines
  rw [hcount, hlayout, List.mem_map]
  constructor
  · rintro ⟨i, hi, rfl⟩
    have hle : w.lineSize * (i + 1) ≤ w.lineSize * lines :=
      Nat.mul_le_mul_left _ (List.mem_range.mp hi)
    refine ⟨Nat.dvd_add w.dvd_base (Nat.dvd_mul_left _ _), Nat.le_add_right _ _, ?_⟩
    rw [hlines, Nat.add_assoc, Nat.mul_comm i, ← Nat.mul_succ]
    exact Nat.add_le_add_left hle _
  · rintro ⟨⟨k, rfl⟩, hbase, hstop⟩
    rw [hstart] at hbase
    rw [hstart, hlines, ← Nat.mul_succ, ← Nat.mul_add] at hstop
    have hge : start ≤ k := Nat.le_of_mul_le_mul_left hbase hpos
    have hlt : k + 1 ≤ start + lines := Nat.le_of_mul_le_mul_left hstop hpos
    refine ⟨k - start, List.mem_range.mpr (by omega), ?_⟩
    rw [hstart, Nat.mul_comm (k - start), ← Nat.mul_add, Nat.add_sub_cancel' hge]

/-- An address is in a line of the shared region if it is in the region. -/
theorem exists_sharedLine_iff (w : Scenario) (a : Nat) :
    (∃ addr, w.SharedLine addr ∧ addr ≤ a ∧ a < addr + w.lineSize) ↔
      w.layout.base ≤ a ∧ a < w.layout.base + w.layout.sharedBytes := by
  have hpos := pos_of_isPowerOfTwo w.isPowerOfTwo_lineSize
  constructor
  · rintro ⟨addr, haddr, hle, hlt⟩
    have hbase := haddr.base_le
    have hstop := haddr.le_stop
    omega
  · rintro ⟨hbase, hstop⟩
    -- the line that holds the address
    have hsplit := Nat.div_add_mod a w.lineSize
    have hmod := Nat.mod_lt a hpos
    refine ⟨w.lineSize * (a / w.lineSize),
      ⟨Nat.dvd_mul_right _ _, ?_, ?_⟩, by omega, by omega⟩
    · obtain ⟨start, hstart⟩ := w.dvd_base
      rw [hstart] at hbase ⊢
      exact Nat.mul_le_mul_left _ ((Nat.le_div_iff_mul_le hpos).mpr (Nat.mul_comm _ _ ▸ hbase))
    · obtain ⟨stop, hstop'⟩ := Nat.dvd_add w.dvd_base w.dvd_shared
      rw [hstop'] at hstop ⊢
      rw [← Nat.mul_succ]
      exact Nat.mul_le_mul_left _ ((Nat.div_lt_iff_lt_mul hpos).mpr (Nat.mul_comm _ _ ▸ hstop))

end Simulation

/-! ### The first cycle is about to begin -/

/-- The shared region is filled, and there are zeros behind it. -/
structure Scenario.Primed (w : Scenario) (m : ByteMap) : Prop where
  /-- The shared region is filled. -/
  shared : ∀ a, w.layout.base ≤ a → a < w.layout.base + w.layout.sharedBytes →
    m.byteAt a = fillByte a
  /-- There are zeros behind it. -/
  behind : ∀ a, w.layout.base + w.layout.sharedBytes ≤ a → m.byteAt a = 0

/-- What is known of a generator that has not begun. -/
theorem Assured.of_new {w : Scenario} {s : Settings} {set : PatternSet} {m : ByteMap}
    (hw : w.Of s set) (hprimed : w.Primed m) (port : Nat) :
    Assured w port 0 (.new port s.allocator.numPorts s.traffic set) [] [] m where
  port_eq := rfl
  numPorts_eq := hw.numPorts_eq.symm
  layout_eq := hw.layout_eq.symm
  maxInflight_eq := hw.maxInflight_eq.symm
  fault_eq := rfl
  sited := nofun
  promised := trivial
  seen region addr hcovers := by
    obtain ⟨hstart, hstop⟩ := hcovers
    -- no store is remembered yet: the shared region is filled, its own is zero
    cases region with
    | sharedRegion => exact (hprimed.shared addr hstart hstop).symm
    | privateRegion =>
      refine (ByteMap.byteAt_zero addr).trans (hprimed.behind addr ?_).symm
      exact Nat.le_trans (Nat.le_add_right _ _) hstart
  fulfils := nofun
  nodup := List.nodup_nil
  below := nofun
  linked := Nat.zero_le _
  latency := Nat.zero_le _
  issued := nofun
  room := Nat.zero_le _
  clock := Nat.le_refl _

/-- What is known of all ports before they begin. -/
theorem Consistent.of_new {w : Scenario} {s : Settings} {set : PatternSet} {d : DelayedMemory}
    (hw : w.Of s set) (hprimed : w.Primed d.memory.contents) (hstop : w.stop ≤ d.memory.size)
    (hgranule : isPowerOfTwo d.config.reservationBytes = true) (hfree : d.reservations = ∅) :
    Consistent w 0 ((List.range s.allocator.numPorts).map fun port =>
      .new port s.allocator.numPorts s.traffic set) (fun _ => []) [] d 0 where
  length_eq := by rw [List.length_map, List.length_range, hw.numPorts_eq]
  lane port g hg := by
    rw [List.getElem?_map] at hg
    obtain ⟨i, hi, rfl⟩ := Option.map_eq_some_iff.mp hg
    obtain ⟨_, hi⟩ := List.getElem?_eq_some_iff.mp hi
    rw [List.getElem_range] at hi
    exact hi ▸ .of_new hw hprimed _
  port_lt := nofun
  stop_le := hstop
  granule := hgranule
  counter_eq := by
    -- the counter lies behind the regions, where nothing has been written
    have hzero : ∀ i, d.memory.contents.byteAt (w.counterAddr + i) = 0 := fun i =>
      hprimed.behind _ (Nat.le_trans (Nat.le_add_right _ _) (Nat.le_add_right _ _))
    unfold Scenario.counterIn ByteMap.load span
    rw [List.map_map]
    exact List.map_congr_left fun i _ => hzero i
  holder port hport := by
    unfold DelayedMemory.reservation? at hport
    rw [hfree] at hport
    cases hport
  learned := by
    rw [List.map_map]
    exact (total_map_zero _).symm

namespace Simulation.Begins

variable {s : Settings} {sim : Simulation} {w : Scenario} {m : Plant}

theorem placed (h : sim.Begins s) (hw : w.Of s sim.set) : Placed w sim.generators := by
  refine ⟨?_, fun port g hg => ?_⟩
  · rw [h.generators, List.length_map, List.length_range, hw.numPorts_eq]
  · rw [h.generators, List.getElem?_map] at hg
    obtain ⟨i, hi, rfl⟩ := Option.map_eq_some_iff.mp hg
    obtain ⟨_, hi⟩ := List.getElem?_eq_some_iff.mp hi
    rw [List.getElem_range] at hi
    exact ⟨hi.symm, hw.layout_eq.symm⟩

theorem lineSize_eq (h : sim.Begins s) (hw : w.Of s sim.set) :
    sim.assembly.allocator.config.lineSize = w.lineSize := by
  rw [(Allocator.eq_of_new h.allocator).2, hw.lineSize_eq]
  rfl

theorem stop_le (h : sim.Begins s) (hw : w.Of s sim.set) : w.stop ≤ sim.memory.memory.size := by
  obtain ⟨-, -, -, -, -, hfits⟩ := of_checkSettings h.checked
  obtain ⟨-, -, hbytes, -⟩ := DelayedMemory.of_new h.memory
  rw [hbytes]
  unfold Scenario.stop
  rw [hw.layout_eq, hw.numPorts_eq, hw.lineSize_eq]
  exact hfits

/-- The shared region is filled. -/
theorem exists_filled (h : sim.Begins s) (hw : w.Of s sim.set) :
    ∃ m, sim.fillLines w.lineSize (sim.sharedLines w.lineSize) =
      .ok () { sim with assembly := m } ∧
      Filled sim.assembly m ∧ w.Primed (Plant.memory m).memory.contents := by
  obtain ⟨hports, -⟩ := of_checkSettings h.checked
  obtain ⟨-, -, hbytes, -⟩ := DelayedMemory.of_new h.memory
  have hlayout : sim.layout = w.layout := h.layout_eq.trans hw.layout_eq.symm
  have hlength : sim.assembly.allocator.ports.length = s.allocator.numPorts := by
    rw [(Allocator.eq_of_new h.allocator).2]
    exact (List.length_map _).trans List.length_range
  have hlines : ∀ addr ∈ sim.sharedLines w.lineSize, w.SharedLine addr := fun addr haddr =>
    (mem_sharedLines hlayout).mp haddr
  obtain ⟨m, hfill, hfilled, hcontents⟩ := exists_fillLines (h.placed hw) (hlength ▸ hports)
    (h.lineSize_eq hw) (h.stop_le hw) hlines
  -- a byte was filled iff it lies in the shared region
  simp only [mem_sharedLines hlayout, exists_sharedLine_iff, hbytes] at hcontents
  refine ⟨m, hfill, hfilled, fun a hbase hstop => ?_, fun a hbehind => ?_⟩
  · rw [hcontents, if_pos ⟨hbase, hstop⟩]
  · rw [hcontents, if_neg fun hin => Nat.not_lt.mpr hbehind hin.2]
    exact ByteMap.byteAt_zero a

/-- Nothing waits, and nothing is on its way. -/
theorem wired (h : sim.Begins s) (hw : w.Of s sim.set) (hfilled : Filled sim.assembly m)
    (hprimed : w.Primed (Plant.memory m).memory.contents) : Wired w 0 m [] 0 [] := by
  obtain ⟨hgranule, hconfig, -, hheld, hfree, hfault⟩ := DelayedMemory.of_new h.memory
  obtain ⟨stats, lastActive, ha'⟩ := hfilled.allocator
  have ha := (Allocator.eq_of_new h.allocator).2
  have hbooks : m.allocator.books = .empty s.allocator := by
    rw [ha', ← Allocator.books_new h.allocator]
    rfl
  have hanswers : Plant.answers m = [] := by
    unfold Plant.answers
    rw [hfilled.heldBack, ha', ha]
    exact hheld
  have hwaiting : Plant.waiting m = fun _ => [] := by
    funext port
    have hqueued : m.allocator.queuedOn port = [] := congrFun (congrArg Books.queued hbooks) port
    -- filling keeps the core of a generator, and a new one has nothing pending
    have hpending : (Plant.lanes m)[port]?.bind (·.pending) = none := by
      have hcore := congrArg (·[port]?.bind (·.2.1)) hfilled.core
      simp only [List.getElem?_map, Option.bind_map] at hcore
      refine hcore.trans ?_
      show sim.generators[port]?.bind (·.pending) = none
      rw [h.generators, List.getElem?_map]
      cases (List.range s.allocator.numPorts)[port]? <;> rfl
    unfold Plant.waiting
    rw [hqueued, hpending]
    rfl
  refine ⟨?_, hfilled.fault.trans hfault, ?_, ?_, ?_⟩
  · rw [ha']
    exact h.lineSize_eq hw
  · have hblocked : (Plant.lanes m).map (·.blocked) = sim.generators.map (·.blocked) :=
      hfilled.blocked
    rw [hblocked, h.generators, ha', ha]
    unfold Allocator.ofConfig
    simp only [List.map_map]
    rfl
  · rw [hbooks, hanswers]
    exact ⟨nofun, nofun, nofun, nofun, .nil⟩
  · rw [hbooks, hwaiting]
    -- the state built is consistent, and filling kept all it speaks of
    have hnew : Consistent w 0 sim.generators (fun _ => []) [] (Plant.memory m) 0 := by
      rw [h.generators]
      exact .of_new hw hprimed (hfilled.size ▸ h.stop_le hw)
        (by rw [hfilled.config]; exact hconfig ▸ hgranule) (hfilled.reservations hfree)
    exact hnew.of_core hfilled.core

/-- Filling the shared region leaves nothing in flight. -/
theorem size_inflight_eq (h : sim.Begins s) (hfilled : Filled sim.assembly m) {g : Generator}
    (hg : g ∈ Plant.lanes m) : g.inflight.size = 0 := by
  have hcore : g.core ∈ (Plant.lanes m).map Generator.core := List.mem_map_of_mem hg
  rw [hfilled.core] at hcore
  obtain ⟨g₀, hg₀, hsame⟩ := List.mem_map.mp hcore
  have hinflight : g.inflight = g₀.inflight := congrArg (·.1.inflight) hsame.symm
  have hnew : g₀ ∈ sim.generators := hg₀
  rw [h.generators] at hnew
  obtain ⟨port, -, rfl⟩ := List.mem_map.mp hnew
  rw [hinflight]
  rfl

end Simulation.Begins

/-- **The shared region is filled**, and then generators, allocator and memory
fit together and nothing is in flight. -/
theorem Simulation.wired_preload {s : Settings} {sim : Simulation} {w : Scenario} (h : sim.Begins s)
    (hw : w.Of s sim.set) :
    ∃ m, sim.preload = .ok () { sim with assembly := m } ∧ Wired w 0 m [] 0 [] ∧
      ∀ g ∈ Plant.lanes m, g.inflight.size = 0 := by
  obtain ⟨-, -, -, -, -, hfault⟩ := DelayedMemory.of_new h.memory
  obtain ⟨m, hfill, hfilled, hprimed⟩ := h.exists_filled hw
  have hnone : m.surroundings.2.fault = none := hfilled.fault.trans hfault
  refine ⟨m, ?_, h.wired hw hfilled hprimed, fun g hg => h.size_inflight_eq hfilled hg⟩
  unfold preload
  simp only [h.lineSize_eq hw, hfill]
  unfold DelayedMemory.takeFault memory
  simp only [hnone]

end MemPort
