import MemPort.Proofs.Setup

/-!
# The cycles of a simulation

In a cycle the memory offers its answers, the generators submit, the allocator
has its turn, and what the generators found wrong would be reported.  Every turn
keeps what is known of the generators, the allocator and the memory, so nothing
is found wrong; a cycle that does not go through has found a starved port, or
the latencies of a generator are no longer a word.  A simulation is a sequence
of such cycles.

## Main definitions

* `Simulation.Paced` — a generator makes an access in a cycle at most.
* `Simulation.Sound` — what is known of a simulation between two turns.
* `Simulation.afterCycles` — a simulation after some cycles.
* `Simulation.incrementsBefore` — the increments that its memory performed in
  them.
* `Simulation.Ends` — how the cycles of a simulation make up its end.

## Main results

* `Simulation.Sound.step` — a cycle keeps what is known.
* `Simulation.Begins.afterCycles` — so it is known after every cycle.
* `Simulation.ends_simulate` — a simulation fails in a cycle, comes to the end
  of its traffic, or runs out of time.

## References

`SPEC_FULL.md`, section 10.7: the order of a cycle, and the end of a run.
-/

namespace MemPort

namespace Simulation

/-! ### Runs as sequences of cycles -/

/-- A simulation after its first cycles; it starts with the shared region filled. -/
def afterCycles (s : Simulation) : Nat → Run Unit
  | 0 => s.preload
  | n + 1 =>
      match s.afterCycles n with
      | .error e s => .error e s
      | .ok () s => ({ s with cycle := n } : Simulation).step n

/-- Where a cycle went through, those before it did. -/
theorem step_of_afterCycles {s s'' : Simulation} {n : Nat}
    (h : s.afterCycles (n + 1) = .ok () s'') :
    ∃ s', s.afterCycles n = .ok () s' ∧
      ({ s' with cycle := n } : Simulation).step n = .ok () s'' := by
  unfold afterCycles at h
  split at h
  · cases h
  · rename_i s' hafter
    exact ⟨s', hafter, h⟩

/-- The increments that the memory performs in a cycle. -/
def incrementsIn (s : Simulation) (now : Nat) : Nat :=
  match s.memoryTurn now with
  | .error _ _ => 0
  | .ok () s =>
      match trafficTurn now s (List.range s.generators.length) with
      | .error _ _ => 0
      | .ok () s => Plant.incrementsIn s.assembly now

/-- The increments that the memory performs in the first cycles. -/
def incrementsBefore (s : Simulation) : Nat → Nat
  | 0 => 0
  | n + 1 =>
      s.incrementsBefore n +
        match s.afterCycles n with
        | .error _ _ => 0
        | .ok () s => incrementsIn { s with cycle := n } n

/-- The increments whose completions the generators have not been handed yet. -/
def undelivered (s : Simulation) : Nat :=
  (Plant.answers s.assembly).countP s.assembly.allocator.increments

/-- How the cycles of a simulation make up its end. -/
inductive Ends (s : Simulation) (timeout : Nat) : Run Summary → Prop
  /-- A cycle does not go through. -/
  | failed {n : Nat} {e : RunError} {s' : Simulation} (hn : n < timeout)
      (h : s.afterCycles (n + 1) = .error e s') : Ends s timeout (.error e s')
  /-- After a cycle the traffic has come to its end. -/
  | finished {n : Nat} {s' : Simulation} {result : Run Summary} (hn : n < timeout)
      (h : s.afterCycles (n + 1) = .ok () s') (hfinished : s'.isFinished = true)
      (hresult : ({ s' with assembly := s'.assembly.note (.finished n) } : Simulation).summarize =
        result) :
      Ends s timeout result
  /-- Time is up. -/
  | expired {s' : Simulation} (h : s.afterCycles timeout = .ok () s') :
      Ends s timeout
        (.error (.unfinished s'.config.timeout s'.assembly.allocator.outstanding.size) s')

theorem ends_runFrom {s s' : Simulation} {timeout now remaining : Nat}
    (h : s.afterCycles now = .ok () s') (hremaining : now + remaining = timeout) :
    s.Ends timeout (s'.runFrom now remaining) := by
  induction remaining generalizing now s' with
  | zero =>
    rw [Nat.add_zero] at hremaining
    exact .expired (hremaining ▸ h)
  | succ remaining ih =>
    have hnext : s.afterCycles (now + 1) = ({ s' with cycle := now } : Simulation).step now := by
      rw [afterCycles, h]
    unfold runFrom
    cases hstep : ({ s' with cycle := now } : Simulation).step now with
    | error e s₁ => exact .failed (by omega) (hnext.trans hstep)
    | ok _ s₁ =>
      simp only
      split
      · rename_i hfinished
        exact .finished (by omega) (hnext.trans hstep) hfinished rfl
      · exact ih (hnext.trans hstep) (by omega)

/-- **A simulation fails in a cycle, comes to the end of its traffic, or runs
out of time.** -/
theorem ends_simulate {s s' : Simulation} (h : s.preload = .ok () s') :
    s.Ends s'.config.timeout s.simulate := by
  unfold simulate
  rw [h]
  have hstart : s.afterCycles 0 = .ok () s' := h
  exact ends_runFrom hstart (Nat.zero_add _)

/-! ### What a turn keeps -/

/-- No generator has more accesses in flight than there were cycles. -/
def Paced (s : Simulation) (cycles : Nat) : Prop :=
  ∀ g ∈ s.generators, g.inflight.size ≤ cycles

theorem generators_print (s : Simulation) (text : String) :
    (s.print text).generators = s.generators := by
  unfold print
  split <;> rfl

/-- What is known of a simulation in which `n` increments took effect. -/
structure Sound (w : Scenario) (timeout now n : Nat) (s : Simulation) : Prop where
  /-- The settings of the simulation do not change. -/
  timeout_eq : s.config.timeout = timeout
  /-- The regions lie where they should. -/
  layout_eq : s.layout = w.layout
  /-- There are as many ports. -/
  numPorts_eq : s.numPorts = w.numPorts
  /-- The patterns are those of the scenario. -/
  set_eq : s.set = w.set
  /-- The generators, the allocator and the memory fit together, and every
  completion is handed out. -/
  wired : ∃ cs, Wired w now s.assembly [] n cs

namespace Sound

variable {w : Scenario} {timeout now n t : Nat} {s : Simulation}

/-- A part of the system takes a turn. -/
theorem of_wired {now' n' : Nat} {m : Plant} {cs : List (Nat × Nat × Response)}
    (h : s.Sound w timeout now n) (hm : Wired w now' m [] n' cs) :
    ({ s with assembly := m } : Simulation).Sound w timeout now' n' :=
  { h with wired := ⟨cs, hm⟩ }

theorem mono (h : s.Sound w timeout now n) (hle : now ≤ t) : s.Sound w timeout t n := by
  obtain ⟨cs, hwired⟩ := h.wired
  exact h.of_wired (hwired.mono hle)

theorem print (h : s.Sound w timeout now n) (text : String) :
    (s.print text).Sound w timeout now n := by
  unfold Simulation.print
  split
  · exact { h with }
  · exact h

/-- The memory has found nothing wrong. -/
theorem memory_fault_eq (h : s.Sound w timeout now n) : s.memory.fault = none := by
  obtain ⟨cs, hwired⟩ := h.wired
  exact hwired.fault_eq

/-- No generator has found anything wrong. -/
theorem fault_eq (h : s.Sound w timeout now n) {g : Generator} (hg : g ∈ s.generators) :
    g.fault = none := by
  obtain ⟨cs, hwired⟩ := h.wired
  obtain ⟨port, hport⟩ := List.getElem?_of_mem hg
  exact (hwired.consistent.lane port g hport).fault_eq

/-- **The counter tells the increments**, and the generators know of all but
those that are on their way. -/
theorem counter (h : s.Sound w timeout now n) :
    s.memory.memory.contents.load w.counterAddr Generator.counterBytes = wordBytes n ∧
      n = s.successes + s.undelivered := by
  obtain ⟨cs, hwired⟩ := h.wired
  refine ⟨hwired.consistent.counter_eq, ?_⟩
  have hlearned := hwired.consistent.learned
  rw [List.nil_append, hwired.flight.countP_due] at hlearned
  exact hlearned

/-- Every generator has made an access in a cycle at most. -/
theorem paced (h : s.Sound w timeout now n) : s.Paced (now + 1) := by
  intro g hg
  obtain ⟨cs, hwired⟩ := h.wired
  obtain ⟨port, hport⟩ := List.getElem?_of_mem hg
  have hlane := hwired.consistent.lane port g hport
  have hroom := hlane.room
  have hclock := hlane.clock
  omega

/-- The memory offers its answers. -/
theorem memoryTurn (h : s.Sound w timeout now n) (t : Nat) :
    ∃ s', s.memoryTurn t = .ok () s' ∧ s'.Sound w timeout now n ∧
      s'.generators = s.generators := by
  obtain ⟨cs, hwired⟩ := h.wired
  have hfault : (s.memory.tick t s.assembly.allocator).value.1.fault = none :=
    (DelayedMemory.fault_tick t _ _).trans h.memory_fault_eq
  refine ⟨_, ?_, h.of_wired (hwired.memoryTurn t
    (s.assembly.journal.addAll (s.memory.tick t s.assembly.allocator).notices)), rfl⟩
  unfold Simulation.memoryTurn
  simp only
  split
  · rename_i f memory htaken
    have htaken : _ = some f := congrArg Prod.fst htaken
    cases hfault.symm.trans htaken
  · rfl

/-- A generator has its turn, the first in this cycle, and the others wait for
theirs. -/
theorem generatorTurn (h : s.Sound w timeout t n) (port : Nat)
    (hpaced : ∀ g, s.generators[port]? = some g → g.inflight.size ≤ t) :
    ∃ s', s.generatorTurn t port = .ok () s' ∧ s'.Sound w timeout t n ∧
      ∀ q, port ≠ q → s'.generators[q]? = s.generators[q]? := by
  obtain ⟨cs, hwired⟩ := h.wired
  unfold Simulation.generatorTurn
  cases hg : s.generators[port]? with
  | none => exact ⟨s, rfl, h, fun _ _ => rfl⟩
  | some g =>
    obtain ⟨l, htick, hwired'⟩ := hwired.generatorTurn hg (Nat.le_refl t) (hpaced g hg)
    have hs := h.of_wired (hwired' (s.assembly.journal.addAll l.notices))
    have hothers : ∀ q, port ≠ q →
        (s.generators.set port l.value.2.1)[q]? = s.generators[q]? := fun _ hq =>
      List.getElem?_set_ne hq
    simp only [h.set_eq, htick]
    cases l.value.1 with
    | none => exact ⟨_, rfl, hs, hothers⟩
    | some pattern =>
      refine ⟨_, rfl, hs.print _, fun q hq => ?_⟩
      rw [generators_print]
      exact hothers q hq

/-- The generators have their turns, one each. -/
theorem trafficTurn (h : s.Sound w timeout t n) {ports : List Nat} (hnodup : ports.Nodup)
    (hpaced : ∀ port ∈ ports, ∀ g, s.generators[port]? = some g → g.inflight.size ≤ t) :
    ∃ s', Simulation.trafficTurn t s ports = .ok () s' ∧ s'.Sound w timeout t n := by
  induction ports generalizing s with
  | nil => exact ⟨s, rfl, h⟩
  | cons port rest ih =>
    obtain ⟨hfresh, hnodup⟩ := List.nodup_cons.mp hnodup
    obtain ⟨s₁, hturned, h₁, hothers⟩ :=
      h.generatorTurn port (hpaced port List.mem_cons_self)
    unfold Simulation.trafficTurn
    rw [hturned]
    -- those that are still to come are as they were at the start of the cycle
    refine ih h₁ hnodup fun q hq g hg => hpaced q (List.mem_cons_of_mem _ hq) g ?_
    rw [← hothers q fun heq => hfresh (heq ▸ hq)]
    exact hg

/-- What a generator found wrong would be reported. -/
theorem checkTraffic (h : s.Sound w timeout now n) (t : Nat) : s.checkTraffic t = .ok () s := by
  have hnone : s.generators.findIdx? (·.fault.isSome) = none := by
    rw [List.findIdx?_eq_none_iff]
    intro g hg
    rw [h.fault_eq hg]
    rfl
  unfold Simulation.checkTraffic
  rw [hnone]

/-- A generator that has finished a pattern goes on. -/
theorem passBarrier (h : s.Sound w timeout now n) (port : Nat) :
    (s.passBarrier port).Sound w timeout now n := by
  obtain ⟨cs, hwired⟩ := h.wired
  unfold Simulation.passBarrier
  split
  · exact h
  · rename_i g hg
    split
    · have hcore : (g.advance s.set).2.core = g.core := by
        unfold Generator.advance
        simp only
        split <;> rfl
      have hblocked : (g.advance s.set).2.blocked = g.blocked := by
        unfold Generator.advance
        simp only
        split <;> rfl
      have hs : (s.setGenerators (s.generators.set port (g.advance s.set).2)).Sound w
          timeout now n := by
        refine h.of_wired
          (hwired.of_core rfl ?_ (map_set_of_eq hg hcore) (.refl _) hwired.fault_eq rfl)
        exact hwired.handshake.trans (map_set_of_eq hg hblocked).symm
      simp only
      split
      · exact hs.print _
      · exact hs
    · exact h

theorem foldl_passBarrier {ports : List Nat} (h : s.Sound w timeout now n) :
    (ports.foldl Simulation.passBarrier s).Sound w timeout now n := by
  induction ports generalizing s with
  | nil => exact h
  | cons port rest ih => exact ih (h.passBarrier port)

theorem passBarriers (h : s.Sound w timeout now n) : s.passBarriers.Sound w timeout now n := by
  unfold Simulation.passBarriers
  split
  · exact h
  · exact h.foldl_passBarrier

end Sound

/-! ### What a cycle keeps -/

/-- What may end a cycle: a port is starved, or the latencies of a generator are
no longer a word.  It has so many accesses in flight at most, and no more than
there were cycles to make them in, so that this takes at least `2 ^ 32`
cycles. -/
def Stops (maxInflight now : Nat) (e : RunError) : Prop :=
  (∃ l, e = .allocatorFailed now (.liveness l)) ∨
    e = .broken .overflow ∧ maxWord < min maxInflight now * now

namespace Sound

variable {w : Scenario} {timeout now n t : Nat} {s : Simulation}

/-- The allocator has its turn. -/
theorem allocatorTurn (h : s.Sound w timeout t n) :
    (∃ s', s.allocatorTurn t = .ok () s' ∧
      s'.Sound w timeout t (n + Plant.incrementsIn s.assembly t)) ∨
    ∃ e s', s.allocatorTurn t = .error e s' ∧ Stops w.maxInflight t e := by
  obtain ⟨cs, hwired⟩ := h.wired
  unfold Simulation.allocatorTurn
  rcases hwired.tick (t := t) with
    ⟨m, cs', hticked, hm⟩ | ⟨e, m, hticked, ⟨l, rfl⟩ | ⟨rfl, hword⟩⟩
  · rw [hticked]
    exact Or.inl ⟨_, rfl, h.of_wired hm⟩
  · rw [hticked]
    exact Or.inr ⟨_, _, rfl, Or.inl ⟨l, rfl⟩⟩
  · rw [hticked]
    exact Or.inr ⟨_, _, rfl, Or.inr ⟨rfl, hword⟩⟩

/-- **A cycle goes through**, unless a port is starved or latencies are
exhausted. -/
theorem step (h : s.Sound w timeout now n) (hle : now ≤ t) (hpaced : s.Paced t) :
    (∃ s', s.step t = .ok () s' ∧ s'.Sound w timeout t (n + s.incrementsIn t)) ∨
    ∃ e s', s.step t = .error e s' ∧ Stops w.maxInflight t e := by
  obtain ⟨s₁, hmemory, h₁, hsame⟩ := (h.mono hle).memoryTurn t
  obtain ⟨s₂, htraffic, h₂⟩ :=
    h₁.trafficTurn (List.nodup_range (n := s₁.generators.length))
    fun port _ g hg => hpaced g (hsame ▸ List.mem_of_getElem? hg)
  have hincrements : s.incrementsIn t = Plant.incrementsIn s₂.assembly t := by
    unfold incrementsIn
    rw [hmemory]
    simp only [htraffic]
  unfold Simulation.step
  rw [hmemory, hincrements]
  simp only [htraffic]
  rcases h₂.allocatorTurn with ⟨s₃, hallocator, h₃⟩ | ⟨e, s₃, hallocator, hstops⟩
  · rw [hallocator]
    simp only [h₃.checkTraffic t]
    exact Or.inl ⟨_, rfl, h₃.passBarriers⟩
  · rw [hallocator]
    exact Or.inr ⟨e, s₃, rfl, hstops⟩

end Sound

/-! ### What all cycles keep -/

namespace Begins

variable {s : Settings} {sim : Simulation} {w : Scenario}

/-- The shared region is filled before the first cycle. -/
theorem sound_preload (h : sim.Begins s) (hw : w.Of s sim.set) :
    ∃ s₀, sim.preload = .ok () s₀ ∧ s₀.Sound w s.simulation.timeout 0 0 ∧
    s₀.Paced 0 := by
  obtain ⟨m, hpreload, hwired, hnone⟩ := wired_preload h hw
  exact ⟨_, hpreload, ⟨congrArg SimulationConfig.timeout h.config_eq,
    h.layout_eq.trans hw.layout_eq.symm, h.numPorts_eq.trans hw.numPorts_eq.symm, hw.set_eq.symm,
    [], hwired⟩, fun g hg => Nat.le_of_eq (hnone g hg)⟩

/-- **What is known of a simulation after every cycle**, and why a cycle may not
go through. -/
theorem afterCycles (h : sim.Begins s) (hw : w.Of s sim.set) (n : Nat) :
    (∃ s', sim.afterCycles n = .ok () s' ∧
      s'.Sound w s.simulation.timeout (n - 1) (sim.incrementsBefore n) ∧ s'.Paced n) ∨
    ∃ e s' t, sim.afterCycles n = .error e s' ∧ t < n ∧ Stops w.maxInflight t e := by
  induction n with
  | zero =>
    obtain ⟨s₀, hpreload, h₀, hpaced⟩ := h.sound_preload hw
    exact Or.inl ⟨s₀, hpreload, h₀, hpaced⟩
  | succ n ih =>
    unfold Simulation.afterCycles incrementsBefore
    rcases ih with ⟨s', hafter, hs', hpaced⟩ | ⟨e, s', t, hafter, ht, hstops⟩
    · have hs : ({ s' with cycle := n } : Simulation).Sound w s.simulation.timeout (n - 1)
          (sim.incrementsBefore n) := { hs' with }
      rw [hafter]
      rcases hs.step (Nat.sub_le n 1) hpaced with
        ⟨s'', hstep, hs''⟩ | ⟨e, s'', hstep, hstops⟩
      · exact Or.inl ⟨s'', hstep, hs'', hs''.paced⟩
      · exact Or.inr ⟨e, s'', n, hstep, Nat.lt_succ_self n, hstops⟩
    · rw [hafter]
      exact Or.inr ⟨e, s', t, rfl, Nat.lt_succ_of_lt ht, hstops⟩

theorem sound_afterCycles (h : sim.Begins s) (hw : w.Of s sim.set) {n : Nat} {s' : Simulation}
    (hafter : sim.afterCycles n = .ok () s') :
    s'.Sound w s.simulation.timeout (n - 1) (sim.incrementsBefore n) := by
  rcases h.afterCycles hw n with ⟨s₁, hok, h₁, -⟩ | ⟨e, s₁, t, herror, -⟩
  · rw [hafter] at hok
    cases hok
    exact h₁
  · rw [hafter] at herror
    cases herror

theorem stops_afterCycles (h : sim.Begins s) (hw : w.Of s sim.set) {n : Nat} {e : RunError}
    {s' : Simulation} (hafter : sim.afterCycles n = .error e s') :
    ∃ t < n, Stops (max s.traffic.maxInflight 1) t e := by
  rcases h.afterCycles hw n with ⟨s₁, hok, -⟩ | ⟨e₁, s₁, t, herror, ht, h₁⟩
  · rw [hafter] at hok
    cases hok
  · rw [hafter] at herror
    cases herror
    exact ⟨t, ht, hw.maxInflight_eq ▸ h₁⟩

/-- The cycles make up the end of the simulation. -/
theorem ends (h : sim.Begins s) (hw : w.Of s sim.set) :
    sim.Ends s.simulation.timeout sim.simulate := by
  obtain ⟨s₀, hpreload, h₀, -⟩ := h.sound_preload hw
  exact h₀.timeout_eq ▸ ends_simulate hpreload

end Begins

end Simulation

end MemPort
