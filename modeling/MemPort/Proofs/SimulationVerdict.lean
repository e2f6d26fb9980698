import MemPort.Proofs.SimulationCycles

/-!
# What a simulation reports

A simulation checks itself: every access is checked by the memory, every
transaction by the allocator, every completion by its generator, and in the end
the counter is compared with the increments.  None of these checks ever fails,
as long as the settings are regular.  What remains are starved ports and the
timeout.

## Main definitions

* `Simulation.counterWord` — the value of the counter.

## Main results

* `no_false_alarm` — no check of a simulation fails.
* `no_lost_increment` — after every cycle the counter tells how many
  increments took effect.

## References

`SPEC_FULL.md`, section 10.7: the checks of a simulation, and the counter that
is read back.
-/

namespace MemPort

namespace Run

variable {α : Type} {r : Run α}

/-- Whether a part of a simulation went through. -/
def isOk : Run α → Bool
  | .ok _ _ => true
  | .error _ _ => false

theorem exists_of_isOk (h : r.isOk = true) : ∃ a s, r = .ok a s := by
  cases r with
  | ok a s => exact ⟨a, s, rfl⟩
  | error e s => cases h

theorem exists_of_not_isOk (h : r.isOk = false) : ∃ e s, r = .error e s := by
  cases r with
  | ok a s => cases h
  | error e s => exact ⟨e, s, rfl⟩

end Run

/-- A load past the queues brings what the memory holds, and changes nothing but
counters. -/
theorem Plant.exists_load {m : Plant} {addr size : Nat} {data : Bytes} (now tag : Nat)
    (hports : 0 < m.allocator.ports.length)
    (hfit : checkLineFit 0 (.load .read tag addr size) m.allocator.config.lineSize = .ok ())
    (hread : m.memory.memory.read addr size = .ok data) :
    ∃ m', m.accessFunctional now 0 (.load .read tag addr size) =
        .ok ⟨tag, .read, addr, data, true⟩ m' ∧ m'.surroundings = m.surroundings := by
  have haccess : m.surroundings.2.access ⟨functionalId, 0, .read, addr, size, []⟩ =
      .ok (.quiet (⟨functionalId, data, true⟩, m.surroundings.2)) := by
    unfold DelayedMemory.access DelayedMemory.perform
    simp only [show m.surroundings.2.memory.read addr size = .ok data from hread]
    rfl
  have hcall : Backend.accessFunctional
      (⟨functionalId, 0, .read, addr, size, []⟩ : BackendRequest)
        m.surroundings = .ok (.quiet (⟨functionalId, data, true⟩, m.surroundings)) :=
    congrArg (Except.map fun l => l.map fun r => (r.1, (m.surroundings.1, r.2))) haccess
  unfold Assembly.accessFunctional
  rw [if_neg (Nat.not_le.mpr hports), hfit]
  simp only [Transaction.load, Command.snoop?, Command.snoopKind?, Option.map_none,
    Assembly.broadcast?, Assembly.note, hcall]
  exact ⟨_, rfl, rfl⟩

namespace Simulation

/-- The value of the counter in the memory. -/
def counterWord (s : Simulation) : Nat :=
  wordOfBytes
    (s.memory.memory.contents.load (s.layout.counterAddr s.numPorts) Generator.counterBytes)

/-- The bytes of a whole counter tell the increments, or the mismatch is
reported. -/
theorem judgeCounter_cases (s : Simulation) {bytes : Bytes}
    (hbytes : bytes.length = Generator.counterBytes) :
    (∃ summary s', s.judgeCounter bytes = .ok summary s' ∧ summary.counter = s.successes ∧
      wordOfBytes bytes = s.successes) ∨
    ∃ c s', s.judgeCounter bytes = .error (.counterMismatch c s.successes) s' ∧
      wordOfBytes bytes ≠ s.successes := by
  unfold judgeCounter
  rw [if_neg (Nat.not_lt.mpr (Nat.le_of_eq hbytes.symm)),
    List.take_of_length_le (Nat.le_of_eq hbytes)]
  simp only
  split
  · rename_i heq
    exact Or.inl ⟨_, _, rfl, heq, heq⟩
  · rename_i hne
    exact Or.inr ⟨_, _, rfl, hne⟩

namespace Sound

variable {w : Scenario} {timeout now n t : Nat} {s : Simulation}

theorem counterWord_eq (h : s.Sound w timeout now n) : s.counterWord = n % 0x100000000 := by
  unfold counterWord
  rw [h.layout_eq, h.numPorts_eq, show w.layout.counterAddr w.numPorts = w.counterAddr from rfl,
    h.counter.1]
  exact wordOfBytes_wordBytes n

/-- At the end of the traffic nothing is on its way. -/
theorem undelivered_of_isFinished (h : s.Sound w timeout now n) (hfinished : s.isFinished = true) :
    s.undelivered = 0 := by
  obtain ⟨cs, hwired⟩ := h.wired
  unfold isFinished Allocator.isIdle at hfinished
  simp only [Bool.and_eq_true] at hfinished
  obtain ⟨⟨-, ⟨hout, -⟩, -⟩, -⟩ := hfinished
  have hentries : s.assembly.allocator.outstanding.entries = [] := List.isEmpty_iff.mp hout
  unfold undelivered
  rw [← hwired.flight.countP_due]
  unfold Books.due
  rw [show s.assembly.allocator.books.outstanding.entries = [] from hentries]
  rfl

/-- The counter is read past the queues. -/
theorem summarize_eq (h : s.Sound w timeout now n) (hports : 0 < w.numPorts) :
    ∃ m, s.summarize = ({ s with assembly := m } : Simulation).judgeCounter (wordBytes n) ∧
      m.surroundings = s.assembly.surroundings := by
  obtain ⟨cs, hwired⟩ := h.wired
  have hin : w.counterAddr + Generator.counterBytes ≤ s.memory.memory.size :=
    Nat.le_trans (Nat.add_le_add_left w.counter_le _) hwired.consistent.stop_le
  have haddr : s.layout.counterAddr s.numPorts = w.counterAddr := by
    rw [h.layout_eq, h.numPorts_eq]
    rfl
  have hread :=
    Memory.read_eq_ok (m := s.memory.memory) (by decide : 0 < Generator.counterBytes) hin
  rw [h.counter.1] at hread
  -- the counter is within the memory and within a line, so it can be loaded
  obtain ⟨m, hloaded, hs⟩ := Plant.exists_load (m := s.assembly) s.cycle functionalId
    (hwired.length_ports.symm ▸ hports)
    (hwired.lineSize_eq ▸ checkLineFit_of_dvd 0 w.isPowerOfTwo_lineSize
      (w.dvd_privateBase w.numPorts)
      w.counter_le) hread
  have hfault : m.surroundings.2.fault = none := hs ▸ h.memory_fault_eq
  refine ⟨m, ?_, hs⟩
  unfold summarize
  rw [haddr]
  simp only [hloaded]
  unfold DelayedMemory.takeFault memory
  simp only [hfault]

/-- **The counter is right at the end of the traffic**, unless there are more
increments than it can tell. -/
theorem summarize (h : s.Sound w timeout now n) (hports : 0 < w.numPorts)
    (hfinished : s.isFinished = true) :
    (∃ summary s', s.summarize = .ok summary s' ∧ summary.counter = n ∧ n < 0x100000000) ∨
      ∃ c s', s.summarize = .error (.counterMismatch c n) s' ∧ 0x100000000 ≤ n := by
  obtain ⟨m, hread, hs⟩ := h.summarize_eq hports
  -- at the end nothing is undelivered, so every increment has been learned of
  have hn : n = s.successes := by
    rw [h.counter.2, h.undelivered_of_isFinished hfinished, Nat.add_zero]
  have hsuccesses : ({ s with assembly := m } : Simulation).successes = n := by
    rw [hn]
    exact congrArg
      (fun x : Generators × DelayedMemory => total (x.1.lanes.map (·.stats.scSuccesses))) hs
  rw [hread]
  rcases judgeCounter_cases { s with assembly := m } (length_wordBytes n) with
    ⟨summary, s', hok, hcounter, hword⟩ | ⟨c, s', herror, hword⟩
  · rw [hsuccesses, wordOfBytes_wordBytes] at hword
    refine Or.inl ⟨summary, s', hok, hcounter.trans hsuccesses, ?_⟩
    exact hword ▸ Nat.mod_lt n (by decide)
  · rw [hsuccesses] at herror
    rw [hsuccesses, wordOfBytes_wordBytes] at hword
    refine Or.inr ⟨c, s', herror, ?_⟩
    by_contra hlt
    exact hword (Nat.mod_eq_of_lt (Nat.lt_of_not_le hlt))

/-- The summary of a simulation whose traffic has come to its end in a cycle. -/
theorem summarized {result : Run Summary} (h : s.Sound w timeout now n) (hports : 0 < w.numPorts)
    (hfinished : s.isFinished = true)
    (hresult : ({ s with assembly := s.assembly.note (.finished t) } : Simulation).summarize =
      result) :
    (∃ summary s', result = .ok summary s' ∧ summary.counter = n ∧ n < 0x100000000) ∨
      ∃ c s', result = .error (.counterMismatch c n) s' ∧ 0x100000000 ≤ n := by
  obtain ⟨cs, hwired⟩ := h.wired
  have hnoted : Wired w now (s.assembly.note (.finished t)) [] n cs :=
    hwired.of_same rfl rfl rfl rfl
  exact hresult ▸ (h.of_wired hnoted).summarize hports hfinished

end Sound

/-! ### A whole simulation -/

variable {s : Settings} {level : Level} {sim : Simulation}

/-- **What a simulation may report**: that a cycle did not go through, that time
is up, or that there are more increments than the counter can tell. -/
theorem Begins.reports {w : Scenario} {e : RunError} {s' : Simulation} (h : sim.Begins s)
    (hw : w.Of s sim.set) (hfailed : sim.simulate = .error e s') :
    (∃ t < s.simulation.timeout, Stops (max s.traffic.maxInflight 1) t e) ∨
      (∃ k, e = .unfinished s.simulation.timeout k) ∨
        ∃ c k, e = .counterMismatch c k ∧ 0x100000000 ≤ k := by
  have hports : 0 < w.numPorts := hw.numPorts_eq ▸ (of_checkSettings h.checked).1
  have hends := h.ends hw
  rw [hfailed] at hends
  -- the run stopped in a cycle, at its summary, or at the limit of cycles
  cases hends with
  | @failed n _ _ hn hafter =>
    obtain ⟨t, ht, hstops⟩ := h.stops_afterCycles hw hafter
    exact Or.inl ⟨t, Nat.lt_of_lt_of_le ht hn, hstops⟩
  | finished _ hafter hfinished hresult =>
    rcases (h.sound_afterCycles hw hafter).summarized hports hfinished hresult with
      ⟨_, _, hok, -⟩ | ⟨c, _, herror, hle⟩
    · cases hok
    · cases herror
      exact Or.inr (Or.inr ⟨c, _, rfl, hle⟩)
  | expired hafter =>
    rw [(h.sound_afterCycles hw hafter).timeout_eq]
    exact Or.inr (Or.inl ⟨_, rfl⟩)

/-- **No check of a simulation fails.**  After every cycle the memory and the
generators have found nothing wrong, and a cycle that does not go through has
found a starved port; or the sum of the latencies of a generator is no longer a
word, which takes at least `2 ^ 32` cycles.  So a simulation reports a starved
port, the timeout, or, in its summary, a counter that does not match. -/
theorem no_false_alarm (hnew : Simulation.new s level = .ok sim) (hregular : s.Regular sim.set) :
    (∀ n s', sim.afterCycles n = .ok () s' →
      s'.memory.fault = none ∧ ∀ g ∈ s'.generators, g.fault = none) ∧
    (∀ n e s', sim.afterCycles n = .error e s' →
      ∃ t < n, Stops (max s.traffic.maxInflight 1) t e) ∧
    ∀ e s', sim.simulate = .error e s' →
      (∃ t < s.simulation.timeout, Stops (max s.traffic.maxInflight 1) t e) ∨
        (∃ k, e = .unfinished s.simulation.timeout k) ∨ ∃ c k, e = .counterMismatch c k := by
  obtain ⟨w, hw⟩ := exists_scenario hnew hregular
  have hbegins := begins_of_new hnew
  refine ⟨fun n s' hafter => ?_, fun n e s' hafter => hbegins.stops_afterCycles hw hafter,
    fun e s' hfailed => ?_⟩
  · have hs' := hbegins.sound_afterCycles hw hafter
    exact ⟨hs'.memory_fault_eq, fun g hg => hs'.fault_eq hg⟩
  · rcases hbegins.reports hw hfailed with hstopped | hexpired | ⟨c, k, he, -⟩
    · exact Or.inl hstopped
    · exact Or.inr (Or.inl hexpired)
    · exact Or.inr (Or.inr ⟨c, k, he⟩)

/-- Two ports increment the counter once each, and the memory is slower than the
check of progress allows. -/
def slowIncrements : Settings where
  simulation := { timeout := 12 }
  allocator := { numPorts := 2, requestLatency := 0, lineSize := 4, progressCheckPeriod := 2 }
  memory := { latency := 9, memoryBytes := 32 }
  traffic := {
    reqsPerPattern := 1, layout := ⟨0, 4, 4⟩, printLines := false
    patterns := [{ kind := "atomic" }] }

/-- Nothing is found wrong in the first cycles, until a port is found starved. -/
theorem no_false_alarm_slowIncrements : ∃ sim s₄ e₅ s₅ e s',
    Simulation.new slowIncrements .warn = .ok sim ∧ slowIncrements.Regular sim.set ∧
    sim.afterCycles 4 = .ok () s₄ ∧
    (s₄.memory.fault = none ∧ ∀ g ∈ s₄.generators, g.fault = none) ∧
    sim.afterCycles 5 = .error e₅ s₅ ∧ (∃ t < 5, Stops 8 t e₅) ∧
    sim.simulate = .error e s' ∧ ((∃ t < 12, Stops 8 t e) ∨ (∃ k, e = .unfinished 12 k) ∨
      ∃ c k, e = .counterMismatch c k) := by
  obtain ⟨sim, hnew, hsim⟩ := exists_of_any (x := Simulation.new slowIncrements .warn)
    (p := fun sim => decide (slowIncrements.Regular sim.set) && (sim.afterCycles 4).isOk &&
      !(sim.afterCycles 5).isOk && !sim.simulate.isOk) (by decide +kernel)
  simp only [Bool.and_eq_true, Bool.not_eq_true', decide_eq_true_eq] at hsim
  obtain ⟨⟨⟨hregular, hfour⟩, hfive⟩, hend⟩ := hsim
  obtain ⟨_, s₄, hfour⟩ := Run.exists_of_isOk hfour
  obtain ⟨e₅, s₅, hfive⟩ := Run.exists_of_not_isOk hfive
  obtain ⟨e, s', hend⟩ := Run.exists_of_not_isOk hend
  obtain ⟨hsound, hstops, hfails⟩ := no_false_alarm hnew hregular
  exact ⟨sim, s₄, e₅, s₅, e, s', hnew, hregular, hfour, hsound 4 s₄ hfour, hfive,
    hstops 5 e₅ s₅ hfive, hend, hfails e s' hend⟩

/-- **No increment of the counter is lost.**  After every cycle the counter
tells, up to its 32 bits, how many store-conditionals the memory has performed
with success, and the generators have been told of all of them but those whose
completions have not been delivered.  So the last check of a simulation fails
only if there are more increments than the counter can tell. -/
theorem no_lost_increment (hnew : Simulation.new s level = .ok sim) (hregular : s.Regular sim.set) :
    (∀ n s', sim.afterCycles n = .ok () s' →
      s'.counterWord = sim.incrementsBefore n % 0x100000000 ∧
        sim.incrementsBefore n = s'.successes + s'.undelivered) ∧
    ∀ c k s', sim.simulate = .error (.counterMismatch c k) s' → 0x100000000 ≤ k := by
  obtain ⟨w, hw⟩ := exists_scenario hnew hregular
  have hbegins := begins_of_new hnew
  refine ⟨fun n s' hafter => ?_, fun c k s' hfailed => ?_⟩
  · have hs' := hbegins.sound_afterCycles hw hafter
    exact ⟨hs'.counterWord_eq, hs'.counter.2⟩
  · rcases hbegins.reports hw hfailed with
      ⟨t, -, ⟨l, he⟩ | ⟨he, -⟩⟩ | ⟨_, he⟩ | ⟨_, _, he, hle⟩
    · cases he
    · cases he
    · cases he
    · cases he
      exact hle

/-- Two ports increment the counter once each. -/
def fastIncrements : Settings :=
  { slowIncrements with memory := { slowIncrements.memory with latency := 1 } }

/-- After three cycles an increment has taken effect, and its completion is on
its way. -/
theorem no_lost_increment_fastIncrements : ∃ sim s₃,
    Simulation.new fastIncrements .warn = .ok sim ∧ fastIncrements.Regular sim.set ∧
    sim.afterCycles 3 = .ok () s₃ ∧ sim.incrementsBefore 3 = 1 ∧
    s₃.counterWord = 1 % 0x100000000 ∧ 1 = s₃.successes + s₃.undelivered := by
  obtain ⟨sim, hnew, hsim⟩ := exists_of_any (x := Simulation.new fastIncrements .warn)
    (p := fun sim => decide (fastIncrements.Regular sim.set) && (sim.afterCycles 3).isOk &&
      sim.incrementsBefore 3 == 1) (by decide +kernel)
  simp only [Bool.and_eq_true, beq_iff_eq, decide_eq_true_eq] at hsim
  obtain ⟨⟨hregular, hthree⟩, hone⟩ := hsim
  obtain ⟨_, s₃, hthree⟩ := Run.exists_of_isOk hthree
  obtain ⟨hcounter, hlearned⟩ := (no_lost_increment hnew hregular).1 3 s₃ hthree
  exact ⟨sim, s₃, hnew, hregular, hthree, hone, hone ▸ hcounter, hone ▸ hlearned⟩

end Simulation

end MemPort
