import MemPort.Proofs.Happenings

/-!
# What a cycle hands over

The history of a simulation is computed from the states that it goes through.
Here it is compared with what the parts of a cycle do to the allocator and to
the generators: the allocator gets the submissions of the history, one after the
other, and takes or refuses each as the history says; and the generators get its
completions, and are otherwise told of leaves and of snoops only.

## Main definitions

* `Admits` — what an allocator comes to that gets submissions.
* `Simulation.Exchanges` — a cycle that hands over certain submissions and
  completions.

## Main results

* `Simulation.exchanges_step` — a cycle hands over what happens in it, and
  nothing else.

## References

`SPEC_FULL.md`, sections 6 and 10.7: the calls between the generators and the
allocator, and the order in which a cycle makes them.
-/

namespace MemPort

/-- The submission among the happenings, with its port and whether it is taken. -/
def Happening.submission? : Happening → Option (Nat × Transaction × Bool)
  | submitted port txn taken => some (port, txn, taken)
  | made .. | completed .. => none

/-- The completion among the happenings, with its port. -/
def Happening.completion? : Happening → Option (Nat × Response)
  | completed port r => some (port, r)
  | made .. | submitted .. => none

/-- An allocator gets submissions, one after the other, and takes or refuses
each as is said. -/
inductive Admits (now : Nat) : Allocator → List (Nat × Transaction × Bool) →
    Allocator → Prop
  /-- There are no more. -/
  | nil (a : Allocator) : Admits now a [] a
  /-- One more is submitted. -/
  | cons {a a' : Allocator} {port : Nat} {txn : Transaction} {l : Logged (Bool × Allocator)}
      {rest : List (Nat × Transaction × Bool)} (hsubmit : a.submit now port txn = .ok l)
      (hrest : Admits now l.value.2 rest a') : Admits now a ((port, txn, l.value.1) :: rest) a'

namespace Admits

variable {now : Nat} {a a₁ a' : Allocator} {xs ys : List (Nat × Transaction × Bool)}

theorem append (h : Admits now a xs a₁) (h' : Admits now a₁ ys a') :
    Admits now a (xs ++ ys) a' := by
  induction h with
  | nil => exact h'
  | cons hsubmit _ ih => exact .cons hsubmit (ih h')

/-- A single submission. -/
theorem of_submits {g g' : Generator} {txn : Transaction} (h : g.Submits txn a g' a') :
    Admits g.now a [(g.port, txn, a.takes g.now g.port txn)] a' := by
  have htakes : ∀ {l : Logged (Bool × Allocator)}, a.submit g.now g.port txn = .ok l →
      a.takes g.now g.port txn = l.value.1 := fun hsubmit => by
    unfold Allocator.takes
    rw [hsubmit]
  cases h with
  | taken hsubmit =>
    rw [htakes hsubmit]
    exact .cons hsubmit (.nil _)
  | refused hsubmit =>
    rw [htakes hsubmit]
    exact .cons hsubmit (.nil _)

/-- **In its part of a cycle a generator submits what happens in it.** -/
theorem of_tick {g : Generator} {set : PatternSet}
    {l : Logged (Option Nat × Generator × Allocator)} (h : g.tick now set a = .ok l) :
    Admits now a ((g.happenings now set a).filterMap Happening.submission?) l.value.2.2 := by
  have hmoves := Generator.moves_of_tick h
  unfold Generator.happenings
  generalize g.offer? now set = offer at hmoves
  generalize l.value.2.1 = g', l.value.2.2 = a' at hmoves
  cases hmoves with
  | waits => exact .nil a
  | ends => exact .nil a
  | finishes => exact .nil a
  | repeats _ _ _ hsubmits => exact of_submits hsubmits
  | makes _ _ _ _ _ hmakes hsubmits =>
    -- an access that is made is submitted on the same port in the same cycle
    obtain ⟨-, awaited, reqIndex, shadow, scValue, rfl⟩ := hmakes.frame
    exact of_submits hsubmits

end Admits

namespace Plant

variable {m m' : Plant} {now : Nat}

/-- Answers are handed out one after the other. -/
theorem takes_drainLoop {drained b : Bool} (h : m.drainLoop now drained = .ok b m') :
    Takes m.lanes (m.completionsIn now) m'.lanes := by
  fun_induction Assembly.drainLoop now drained m with
  | case1 drained m hnone =>
    cases h
    rw [Assembly.completionsIn_of_none hnone]
    exact .nil _
  | case2 => cases h
  | case3 drained m response port hdrain m₁ hok ih =>
    obtain ⟨-, -, -, htakes, -⟩ := takes_of_answer hok
    rw [Assembly.completionsIn_of_answer hdrain hok]
    exact htakes.append (ih h)

theorem hears_issueLoop {issued : Nat} (h : m.issueLoop now issued = .ok () m') :
    Hears m.lanes m'.lanes := by
  fun_induction Assembly.issueLoop now issued m with
  | case1 => cases h; exact .refl
  | case2 => cases h
  | case3 issued m hstop turn m₁ hok hon ih =>
    have hturned := Assembly.turned_of_issueTurn (Allocator.not_busy hstop) hok
    exact (hears_turned hturned).trans (ih h)
  | case4 issued m hstop turn m₁ hok hon =>
    cases h
    exact hears_turned (Assembly.turned_of_issueTurn (Allocator.not_busy hstop) hok)

/-- **The allocator's part of a cycle**: completions are handed out first, and
only then is there leave for submissions, and are there snoops. -/
theorem takes_tick (h : m.tick now = .ok () m') :
    ∃ lanes, Takes m.lanes (m.completionsIn now) lanes ∧ Hears lanes m'.lanes := by
  unfold Assembly.tick at h
  split at h
  · cases h
  · split at h
    · cases h
    · rename_i m₁ hdrain
      split at h
      · cases h
      · rename_i m₂ hissued
        have hswept := (Rests.sweepLocks m₁ now).lanes
        have hissue := hears_issueLoop hissued
        have hchecked := (Rests.checkProgress h).lanes
        -- after the answers, the generators are told of retries and snoops only
        have hheard := (hswept.trans hissue).trans hchecked
        unfold Assembly.drain at hdrain
        split at hdrain
        · cases hdrain
        · rename_i m₀ hloop
          cases hdrain
          exact ⟨_, takes_drainLoop hloop, hheard⟩
        · rename_i m₀ hloop
          cases hdrain
          exact ⟨_, takes_drainLoop hloop, (Rests.settleResponses m₀).lanes.trans hheard⟩

end Plant

namespace Simulation

variable {s s' : Simulation} {now : Nat}

/-- A generator has its turn. -/
theorem admits_generatorTurn {port : Nat} (h : s.generatorTurn now port = .ok () s') :
    Admits now s.assembly.allocator
      (((s.generators[port]?.map fun g => g.happenings now s.set s.assembly.allocator).getD
        []).filterMap Happening.submission?) s'.assembly.allocator := by
  unfold generatorTurn at h
  split at h
  · rename_i hnone
    cases h
    rw [hnone]
    exact .nil _
  · rename_i g hg
    rw [hg]
    split at h
    · cases h
    · rename_i l htick
      have hadmits := Admits.of_tick htick
      simp only at h
      split at h
      · cases h
        exact hadmits
      · cases h
        unfold print
        split
        · exact hadmits
        · exact hadmits

/-- The generators have their turns, and the allocator gets what they submit. -/
theorem admits_trafficTurn {ports : List Nat} (h : trafficTurn now s ports = .ok () s') :
    Admits now s.assembly.allocator
      ((trafficHappenings now s ports).filterMap Happening.submission?)
      s'.assembly.allocator := by
  induction ports generalizing s with
  | nil =>
    cases h
    exact .nil _
  | cons port rest ih =>
    unfold trafficTurn at h
    unfold trafficHappenings
    cases hturn : s.generatorTurn now port with
    | error e s₁ =>
      rw [hturn] at h
      cases h
    | ok _ s₁ =>
      rw [hturn] at h
      have hone := admits_generatorTurn hturn
      -- a port without a generator submits nothing
      cases hg : s.generators[port]? with
      | none =>
        rw [hg] at hone
        exact hone.append (ih h)
      | some g =>
        rw [hg] at hone
        simp only [List.filterMap_append]
        exact hone.append (ih h)

/-- While generators have their turns no completion is handed out. -/
theorem completions_trafficHappenings (now : Nat) (s : Simulation) (ports : List Nat) :
    (trafficHappenings now s ports).filterMap Happening.completion? = [] := by
  have hone : ∀ (g : Generator) (set : PatternSet) (a : Allocator),
      (g.happenings now set a).filterMap Happening.completion? = [] := fun g set a => by
    unfold Generator.happenings
    split
    · rfl
    · split <;> rfl
  induction ports generalizing s with
  | nil => rfl
  | cons port rest ih =>
    unfold trafficHappenings
    split
    · rw [List.filterMap_append, hone, ih]
      rfl
    · exact ih _
    · rfl

/-- Completions are no submissions. -/
theorem submissions_completed (cs : List (Nat × Response)) :
    (cs.map fun c => Happening.completed c.1 c.2).filterMap Happening.submission? = [] := by
  rw [List.filterMap_map]
  exact List.filterMap_eq_nil_iff.mpr fun _ _ => rfl

theorem completions_completed (cs : List (Nat × Response)) :
    (cs.map fun c => Happening.completed c.1 c.2).filterMap Happening.completion? = cs := by
  rw [List.filterMap_map]
  exact List.filterMap_some

/-- The allocator has its turn, and the generators take what it hands out. -/
theorem takes_allocatorTurn (h : s.allocatorTurn now = .ok () s') :
    ∃ lanes, Takes s.generators (s.assembly.completionsIn now) lanes ∧
      Hears lanes s'.generators := by
  unfold allocatorTurn at h
  split at h
  · cases h
  · rename_i m hticked
    cases h
    exact Plant.takes_tick hticked

/-- A cycle that goes through is made of turns that go through. -/
theorem step_eq_ok (h : s.step now = .ok () s') :
    ∃ s₁ s₂ s₃, s.memoryTurn now = .ok () s₁ ∧
      trafficTurn now s₁ (List.range s₁.generators.length) = .ok () s₂ ∧
      s₂.allocatorTurn now = .ok () s₃ ∧ s' = s₃.passBarriers := by
  unfold step at h
  split at h
  · cases h
  rename_i s₁ hmemory
  split at h
  · cases h
  rename_i s₂ htraffic
  split at h
  · cases h
  rename_i s₃ hallocator
  split at h
  · cases h
  rename_i s₄ hchecked
  cases h
  obtain ⟨rfl, -⟩ := of_checkTraffic hchecked
  exact ⟨s₁, s₂, s₄, hmemory, htraffic, hallocator, rfl⟩

/-- A cycle that hands over just these: while the generators have their turns
the allocator gets the submissions, and while it has its turn they get the
completions, and apart from these are told of leaves and of snoops. -/
def Exchanges (now : Nat) (s : Simulation) (hs : List Happening) (s' : Simulation) : Prop :=
  ∃ s₁ s₂ s₃ lanes, s.memoryTurn now = .ok () s₁ ∧
    trafficTurn now s₁ (List.range s₁.generators.length) = .ok () s₂ ∧
    Admits now s₁.assembly.allocator (hs.filterMap Happening.submission?)
      s₂.assembly.allocator ∧
    s₂.allocatorTurn now = .ok () s₃ ∧
    Takes s₂.generators (hs.filterMap Happening.completion?) lanes ∧
    Hears lanes s₃.generators ∧ s' = s₃.passBarriers

/-- **A cycle hands over what happens in it**, and nothing else. -/
theorem exchanges_step (h : s.step now = .ok () s') :
    s.Exchanges now (s.happeningsIn now) s' := by
  obtain ⟨s₁, s₂, s₃, hmemory, htraffic, hallocator, hpassed⟩ := step_eq_ok h
  obtain ⟨lanes, htakes, hhears⟩ := takes_allocatorTurn hallocator
  unfold happeningsIn
  simp only [hmemory, htraffic]
  -- the submissions come first, and the completions are all that follows
  refine ⟨s₁, s₂, s₃, lanes, hmemory, htraffic, ?_, hallocator, ?_, hhears, hpassed⟩
  · rw [List.filterMap_append, submissions_completed, List.append_nil]
    exact admits_trafficTurn htraffic
  · rw [List.filterMap_append, completions_trafficHappenings, completions_completed,
      List.nil_append]
    exact htakes

/-- **The history grows by what a cycle hands over.** -/
theorem exchanges_history {n : Nat} {s'' : Simulation} (hafter : s.afterCycles n = .ok () s')
    (hstep : ({ s' with cycle := n } : Simulation).step n = .ok () s'') :
    ∃ hs, s.history (n + 1) = s.history n ++ hs ∧
      ({ s' with cycle := n } : Simulation).Exchanges n hs s'' := by
  refine ⟨_, ?_, exchanges_step hstep⟩
  rw [history, hafter]

end Simulation

end MemPort
