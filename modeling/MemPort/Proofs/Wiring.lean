import MemPort.Proofs.Flight
import MemPort.Proofs.Fronts

/-!
# Generators, an allocator and a memory

The generators submit to the allocator, the allocator sends requests to the
memory, and both ways are pipelines.  What is known of the parts is put
together, and kept by every step that one of them takes.  So no part ever finds
anything wrong: no access spills or leaves the memory, every answer belongs to a
request, every completion is awaited and brings what was expected, no snoop is
for a private region, and only a generator that was refused is told to try
again.

Only one thing can end a step: the sum of the latencies of a generator may no
longer be a word.

## Main definitions

* `Plant` — generators and a memory around an allocator.
* `Wired` — what is known of a plant.
* `Plant.incrementsBy` — the increments that a turn of the issue loop
  performs.

## Main results

* `Placed.snooped`, `retired_lanes` — snoops and retries disturb no generator.
* `Wired.memoryTurn`, `Wired.generatorTurn`, `Wired.swept`, `Wired.turned` —
  the steps.

## References

`SPEC_FULL.md`, sections 5 and 10.7: a cycle of the whole system, step by step.
-/

namespace MemPort

/-! ### Snoops and retries -/

theorem map_set_of_eq {α β : Type} {f : α → β} {l : List α} {i : Nat} {a a' : α}
    (hi : l[i]? = some a) (h : f a' = f a) : (l.set i a').map f = l.map f := by
  rw [List.map_set, h]
  refine List.ext_getElem? fun j => ?_
  by_cases hj : i = j
  · subst hj
    have hlt := (List.getElem?_eq_some_iff.mp hi).1
    rw [List.getElem?_set_self (by rw [List.length_map]; exact hlt), List.getElem?_map, hi]
    rfl
  · rw [List.getElem?_set_ne hj]

namespace DelayedMemory

variable {d e : DelayedMemory} {request : BackendRequest} {answer : BackendResponse}

/-- A request that can be performed can be offered, and nothing is found wrong
with it. -/
theorem exists_accept (now : Nat) (hperform : d.perform request = .ok (answer, e)) :
    ∃ l, d.accept now request = .ok l ∧ l.value.2.fault = d.fault := by
  have hfault := fault_perform hperform
  unfold accept access
  split
  · exact ⟨_, rfl, rfl⟩
  · rw [hperform]
    refine ⟨_, rfl, ?_⟩
    rw [← hfault]
    simp only [Logged.map, Logged.quiet]
    split <;> rfl

theorem fault_offerAnswers (now : Nat) (d : DelayedMemory) (a : Allocator) :
    (d.offerAnswers now a).value.1.fault = d.fault := by
  fun_induction offerAnswers now d a with
  | case1 d a _ => rfl
  | case2 d a _ _ => rfl
  | case3 d a _ head inflight hpop offered htaken m m' ih =>
    rw [Logged.value_andThen]
    exact ih offered.value
  | case4 d a _ head inflight hpop offered htaken m m' =>
    rw [Logged.value_andThen]
    rfl

theorem fault_tick (now : Nat) (d : DelayedMemory) (a : Allocator) :
    (d.tick now a).value.1.fault = d.fault := by
  obtain ⟨_, hframe⟩ := d.frame_tick now a
  rw [hframe]
  exact fault_offerAnswers now d a

end DelayedMemory

/-- A memory that is offered a request leaves the requestors alone. -/
theorem requestors_accept {ρ : Type} {now : Nat} {request : BackendRequest}
    {s t : ρ × DelayedMemory} {accepted : Bool} {notices : List Notice}
    (h : Backend.accept now request s = .ok ⟨(accepted, t), notices⟩) : t.1 = s.1 := by
  have hdef : Backend.accept now request s =
      (s.2.accept now request).map fun l => l.map fun r => (r.1, (s.1, r.2)) := rfl
  rw [hdef] at h
  obtain ⟨l, -, heq⟩ := exists_of_map_eq_ok h
  cases heq
  rfl

/-- No other port's private region holds the address of a snoop. -/
def Scenario.FarFrom (w : Scenario) (snoop? : Option Snoop) : Prop :=
  ∀ snoop, snoop? = some snoop → ∀ port < w.numPorts, port ≠ snoop.source →
    w.layout.owns port snoop.addr = false

/-- Every port has a generator that knows where it works. -/
structure Placed (w : Scenario) (lanes : List Generator) : Prop where
  /-- There is a generator for every port. -/
  length_eq : lanes.length = w.numPorts
  /-- It knows its port and the regions. -/
  knows : ∀ (port : Nat) (g : Generator), lanes[port]? = some g → g.port = port ∧
    g.layout = w.layout

theorem Consistent.placed {w : Scenario} {now n : Nat} {lanes : List Generator}
    {waiting : Nat → List Transaction} {due : List (Nat × Response)} {d : DelayedMemory}
    (h : Consistent w now lanes waiting due d n) : Placed w lanes :=
  ⟨h.length_eq, fun port g hg => ⟨(h.lane port g hg).port_eq, (h.lane port g hg).layout_eq⟩⟩

namespace Placed

variable {w : Scenario} {lanes : List Generator} {snoop? : Option Snoop}
  {s t : Generators × DelayedMemory}

theorem of_core (h : Placed w lanes) {lanes' : List Generator}
    (hlanes : lanes'.map Generator.core = lanes.map Generator.core) : Placed w lanes' := by
  refine ⟨?_, fun port g hg => ?_⟩
  · have hlength := congrArg List.length hlanes
    rw [List.length_map, List.length_map] at hlength
    exact hlength.trans h.length_eq
  · have hcore := congrArg (·[port]?) hlanes
    simp only [List.getElem?_map, hg, Option.map_some] at hcore
    obtain ⟨g₀, hg₀, hcore⟩ := Option.map_eq_some_iff.mp hcore.symm
    obtain ⟨hport, hlayout⟩ := h.knows port g₀ hg₀
    have hessence := congrArg Prod.fst hcore
    exact ⟨(congrArg Generator.port hessence).symm.trans hport,
      (congrArg Generator.layout hessence).symm.trans hlayout⟩

/-- A lane takes a snoop. -/
theorem snoop {port : Nat} {snoop : Snoop} (h : Placed w s.1.lanes)
    (hport : port < w.numPorts) (hfar : w.layout.owns port snoop.addr = false) :
    ∃ lanes', (Requestors.receiveSnoop port snoop s).value = (.ok (), (⟨lanes'⟩, s.2)) ∧
      lanes'.map Generator.core = s.1.lanes.map Generator.core ∧
      lanes'.map (·.blocked) = s.1.lanes.map (·.blocked) := by
  have hlt : port < s.1.lanes.length := h.length_eq ▸ hport
  have hg := List.getElem?_eq_getElem hlt
  generalize s.1.lanes[port] = g at hg
  obtain ⟨hself, hlayout⟩ := h.knows port g hg
  -- the top of the own region fits a word, so the snoop is looked up in it
  have hword : g.layout.privateBase (g.port + 1) ≤ maxWord := by
    rw [hlayout, hself]
    refine Nat.le_trans ?_ w.counterAddr_le
    rw [RegionLayout.privateBase_succ]
    exact w.layout.privateBase_le hport
  have howns : g.layout.owns g.port snoop.addr = false := by
    rw [hlayout, hself]
    exact hfar
  generalize hg' : (g.count fun c => { c with snoops := c.snoops + 1 }) = g'
  have htaken : (s.1.act port (·.snooped snoop)).value =
      (.ok (), ⟨s.1.lanes.set port g'⟩) := by
    rw [← hg']
    unfold Generators.act Generator.snooped Generator.count
    simp only [hg, Nat.not_lt.mpr hword, howns, Bool.false_eq_true, if_false]
    rfl
  refine ⟨s.1.lanes.set port g', ?_, map_set_of_eq hg (hg' ▸ rfl),
    map_set_of_eq hg (hg' ▸ rfl)⟩
  exact congrArg (fun r : Except Assertion Unit × Generators => (r.1, (r.2, s.2))) htaken

/-- **Snoops disturb nobody.** -/
theorem snooped (h : Placed w s.1.lanes) (hfar : w.FarFrom snoop?) (hsnooped : Snooped snoop? s t) :
    t.2 = s.2 ∧ t.1.lanes.map Generator.core = s.1.lanes.map Generator.core ∧
      t.1.lanes.map (·.blocked) = s.1.lanes.map (·.blocked) := by
  induction hsnooped with
  | refl => exact ⟨rfl, rfl, rfl⟩
  | @snooped t port snoop _ hsnoop hport htaken ih =>
    obtain ⟨hmemory, hcore, hblocked⟩ := ih
    have ht := h.of_core hcore
    have hlt : port < w.numPorts := by
      rw [← ht.length_eq]
      -- a generator that is not there would have failed the snoop
      by_contra hge
      have hnone := List.getElem?_eq_none (Nat.le_of_not_lt hge)
      have hvalue : (Requestors.receiveSnoop port snoop t).value.1 =
          (t.1.act port (·.snooped snoop)).value.1 := rfl
      rw [hvalue] at htaken
      unfold Generators.act at htaken
      rw [hnone] at htaken
      cases htaken
    obtain ⟨lanes', hvalue, hcore', hblocked'⟩ :=
      ht.snoop hlt (hfar snoop hsnoop port hlt hport)
    rw [hvalue]
    exact ⟨hmemory, hcore'.trans hcore, hblocked'.trans hblocked⟩

theorem not_breaksOver (h : Placed w s.1.lanes) (hfar : w.FarFrom snoop?) {a : Assertion} :
    ¬ BreaksOver snoop? s a := by
  rintro ⟨t, port, snoop, hsnooped, hsnoop, hport, hlt, hbroken⟩
  have ht := h.of_core (h.snooped hfar hsnooped).2.1
  have hlt : port < w.numPorts := h.length_eq ▸ hlt
  obtain ⟨lanes', hvalue, -⟩ := ht.snoop hlt (hfar snoop hsnoop port hlt hport)
  rw [hvalue] at hbroken
  cases hbroken

end Placed

/-- **Only a generator that was refused is told to try again**, and it is told
when it is owed it. -/
theorem retired_lanes {now : Nat} {ports : List Nat}
    {x y : List RequestorPort × (Generators × DelayedMemory)} (h : Retired now ports x y)
    (hand : x.1.map (·.needsRetry) = x.2.1.lanes.map (·.blocked)) :
    y.2.2 = x.2.2 ∧ y.2.1.lanes.map Generator.core = x.2.1.lanes.map Generator.core ∧
      y.1.map (·.needsRetry) = y.2.1.lanes.map (·.blocked) := by
  induction h with
  | nil x => exact ⟨rfl, rfl, hand⟩
  | @cons port rest ps s p p' e y hp hpop _ ih =>
    -- the port owes a retry iff its generator waits for one
    have hsame := congrArg (·[port]?) hand
    simp only [List.getElem?_map, hp, Option.map_some] at hsame
    obtain ⟨g, hg, hblocked⟩ := Option.map_eq_some_iff.mp hsame.symm
    cases howed : p.needsRetry with
    | false =>
      rw [howed] at hblocked
      simp only [howed, Bool.false_eq_true, if_false] at ih
      refine ih ?_
      rw [← hand]
      exact map_set_of_eq hp howed.symm
    | true =>
      rw [howed] at hblocked
      simp only [howed, if_true] at ih
      have hretried : Requestors.notifyRetry port s =
          ((s.1.retried port).map fun r => (r, s.2)) := rfl
      have hvalue : (s.1.retried port).value = ⟨s.1.lanes.set port
          (({ g with blocked := false } : Generator).count fun c =>
            { c with retries := c.retries + 1 })⟩ := by
        unfold Generators.retried Generator.retried
        rw [hg]
        simp only [hblocked, if_true]
        rfl
      have hnext : (Requestors.notifyRetry port s).value = (⟨s.1.lanes.set port
          (({ g with blocked := false } : Generator).count fun c =>
            { c with retries := c.retries + 1 })⟩, s.2) :=
        congrArg (fun r => (r, s.2)) hvalue
      rw [hnext] at ih
      obtain ⟨hmemory, hcore, hand'⟩ := ih (by
        rw [List.map_set, List.map_set]
        exact congrArg (List.set · port false) hand)
      exact ⟨hmemory, hcore.trans (map_set_of_eq hg rfl), hand'⟩

/-! ### Plants -/

/-- Generators and a memory around an allocator. -/
abbrev Plant := Assembly (Generators × DelayedMemory)

namespace Plant

/-- The generators, by port number. -/
def lanes (m : Plant) : List Generator := m.surroundings.1.lanes

/-- The memory. -/
def memory (m : Plant) : DelayedMemory := m.surroundings.2

/-- The transactions that wait on a port: those that are queued, and the one
that was refused. -/
def waiting (m : Plant) (port : Nat) : List Transaction :=
  m.allocator.queuedOn port ++ (m.lanes[port]?.bind (·.pending)).toList

/-- The answers on their way to the allocator and in it, oldest first. -/
def answers (m : Plant) : List BackendResponse := m.allocator.answers ++ m.memory.heldBack

theorem answers_congr {m m' : Plant} (hmemory : m'.memory = m.memory)
    (hanswers : m'.allocator.answers = m.allocator.answers) : m'.answers = m.answers := by
  unfold answers
  rw [hanswers, hmemory]

/-- The increments that a turn of the issue loop performs: a store-conditional
that goes out is one, if the memory performs it with success. -/
def incrementsBy (m : Plant) : Turn → Nat
  | .sent _ sent _ =>
      match m.memory.perform sent with
      | .ok (answer, _) => if sent.cmd = .storeCond ∧ answer.success = true then 1 else 0
      | .error _ => 0
  | .idle | .parked _ | .folded .. | .refused .. => 0

end Plant

/-- What is known of a plant in which some completions were drained and are yet
to be handed out. -/
structure Wired (w : Scenario) (now : Nat) (m : Plant) (rest : List (Nat × Response)) (n : Nat)
    (cs : List (Nat × Nat × Response)) : Prop where
  /-- Lines are those of the scenario. -/
  lineSize_eq : m.allocator.config.lineSize = w.lineSize
  /-- The memory has found nothing wrong. -/
  fault_eq : m.memory.fault = none
  /-- The generators that wait for leave to try again are those that are owed it. -/
  handshake : m.allocator.ports.map (·.needsRetry) = m.lanes.map (·.blocked)
  /-- Every request in flight has its answer on its way. -/
  flight : Flight m.allocator.books m.answers m.memory.memory.contents cs
  /-- The generators and the memory fit together. -/
  consistent : Consistent w now m.lanes m.waiting (rest ++ m.allocator.books.due cs) m.memory n

namespace Wired

variable {w : Scenario} {now n : Nat} {m m' : Plant} {rest : List (Nat × Response)}
  {cs : List (Nat × Nat × Response)}

theorem length_ports (h : Wired w now m rest n cs) : m.allocator.ports.length = w.numPorts := by
  have hlength := congrArg List.length h.handshake
  rw [List.length_map, List.length_map, h.consistent.length_eq] at hlength
  exact hlength

/-- A step that hands out nothing and moves no transaction. -/
theorem of_core (h : Wired w now m rest n cs) (hbooks : m'.allocator.books = m.allocator.books)
    (hand : m'.allocator.ports.map (·.needsRetry) = m'.lanes.map (·.blocked))
    (hcore : m'.lanes.map Generator.core = m.lanes.map Generator.core)
    (hmemory : m.memory.Agrees m'.memory) (hfault : m'.memory.fault = none)
    (hanswers : m'.answers = m.answers) : Wired w now m' rest n cs := by
  have hconfig : m'.allocator.config = m.allocator.config := congrArg Books.config hbooks
  have hqueued : m'.allocator.queuedOn = m.allocator.queuedOn := congrArg Books.queued hbooks
  have hwaiting : m'.waiting = m.waiting := by
    funext port
    have hpending := congrArg (·[port]?.bind (·.2.1)) hcore
    simp only [List.getElem?_map, Option.bind_map] at hpending
    unfold Plant.waiting
    rw [hqueued]
    exact congrArg (fun o => m.allocator.queuedOn port ++ Option.toList o) hpending
  refine ⟨hconfig ▸ h.lineSize_eq, hfault, hand, ?_, ?_⟩
  · rw [hbooks, hanswers, hmemory.memory]
    exact h.flight
  · rw [hbooks, hwaiting]
    exact (h.consistent.of_core hcore).of_agrees hmemory

/-- A step that changes nothing but what is not known anyway. -/
theorem of_same (h : Wired w now m rest n cs) (hbooks : m'.allocator.books = m.allocator.books)
    (hand : m'.allocator.ports.map (·.needsRetry) = m.allocator.ports.map (·.needsRetry))
    (hanswers : m'.allocator.answers = m.allocator.answers)
    (hs : m'.surroundings = m.surroundings) :
    Wired w now m' rest n cs := by
  have hlanes : m'.lanes = m.lanes := congrArg (·.1.lanes) hs
  have hmemory : m'.memory = m.memory := congrArg Prod.snd hs
  refine h.of_core hbooks ?_ (congrArg _ hlanes) (hmemory ▸ .refl _) (hmemory ▸ h.fault_eq)
    (Plant.answers_congr hmemory hanswers)
  rw [hand, hlanes]
  exact h.handshake

theorem mono {now' : Nat} (h : Wired w now m rest n cs) (hle : now ≤ now') :
    Wired w now' m rest n cs := { h with consistent := h.consistent.mono hle }

/-! ### The turns of the memory and of a generator -/

/-- **The memory offers its answers.** -/
theorem memoryTurn (h : Wired w now m rest n cs) (t : Nat) (j : Journal) :
    Wired w now ⟨(m.memory.tick t m.allocator).value.2,
      (m.surroundings.1, (m.memory.tick t m.allocator).value.1), j⟩ rest n cs := by
  obtain ⟨hagrees, hrelays, hanswers⟩ := DelayedMemory.of_tick t m.memory m.allocator
  have hfault := DelayedMemory.fault_tick t m.memory m.allocator
  refine h.of_core hrelays.books ?_ rfl hagrees (hfault.trans h.fault_eq) hanswers
  simp only [hrelays.ports]
  exact h.handshake

/-- A generator goes on. -/
theorem replaced {now' port : Nat} {g g' : Generator} (h : Wired w now m rest n cs)
    (hg : m.lanes[port]? = some g) (hle : now ≤ now')
    (hgoes : Assured.Goes w port now' g g' (m.waiting port) (m'.waiting port)
      (dueTo port (rest ++ m.allocator.books.due cs)) m.memory.memory.contents)
    (hother : ∀ q, port ≠ q → m'.waiting q = m.waiting q)
    (hallocator : ∃ ports stats, m'.allocator = { m.allocator with ports, stats })
    (hs : m'.surroundings = (⟨m.lanes.set port g'⟩, m.memory))
    (hand : m'.allocator.ports.map (·.needsRetry) = (m.lanes.set port g').map (·.blocked)) :
    Wired w now' m' rest n cs := by
  obtain ⟨ports, stats, ha⟩ := hallocator
  have hlanes : m'.lanes = m.lanes.set port g' := (congrArg (·.1.lanes) hs :)
  have hmemory : m'.memory = m.memory := (congrArg Prod.snd hs :)
  have hdue : m'.allocator.books.due cs = m.allocator.books.due cs := by
    rw [ha]
    rfl
  refine ⟨?_, hmemory ▸ h.fault_eq, hlanes ▸ hand, ?_, ?_⟩
  · rw [ha]
    exact h.lineSize_eq
  · have hanswers : m'.answers = m.answers := Plant.answers_congr hmemory (by rw [ha]; rfl)
    rw [hanswers, hmemory]
    refine h.flight.congr ?_ ?_ ?_ <;> rw [ha] <;> rfl
  · rw [hlanes, hmemory, hdue]
    exact h.consistent.replaced hg hle hgoes hother

/-- **A generator submits.** -/
theorem generatorTurn {now' port : Nat} {g : Generator} (h : Wired w now m rest n cs)
    (hg : m.lanes[port]? = some g) (hle : now ≤ now') (hpaced : g.inflight.size ≤ now') :
    ∃ l, g.tick now' w.set m.allocator = .ok l ∧
      ∀ j, Wired w now' ⟨l.value.2.2, (⟨m.lanes.set port l.value.2.1⟩, m.memory), j⟩
        rest n cs := by
  have hlt := (List.getElem?_eq_some_iff.mp hg).1
  have hport : port < w.numPorts := h.consistent.length_eq ▸ hlt
  have hwaiting : m.waiting port = m.allocator.queuedOn port ++ g.pending.toList := by
    unfold Plant.waiting
    rw [hg]
    rfl
  have hassured := h.consistent.lane port g hg
  rw [hwaiting] at hassured
  obtain ⟨l, htick, hticked⟩ :=
    hassured.tick hle hpaced hport (a := m.allocator) (h.length_ports ▸ hport)
  refine ⟨l, htick, fun j => ?_⟩
  generalize l.value.2.1 = g' at hticked ⊢
  generalize l.value.2.2 = a' at hticked ⊢
  have hself : ∀ {a : Allocator},
      Plant.waiting ⟨a, (⟨m.lanes.set port g'⟩, m.memory), j⟩ port =
        a.queuedOn port ++ g'.pending.toList := by
    intro a
    unfold Plant.waiting
    rw [show Plant.lanes ⟨a, (⟨m.lanes.set port g'⟩, m.memory), j⟩ =
      m.lanes.set port g' from rfl, List.getElem?_set_self hlt]
    rfl
  have helse : ∀ {a : Allocator} {q : Nat}, port ≠ q →
      a.queuedOn q = m.allocator.queuedOn q →
        Plant.waiting ⟨a, (⟨m.lanes.set port g'⟩, m.memory), j⟩ q = m.waiting q := by
    intro a q hq hqueued
    unfold Plant.waiting
    simp only [Plant.lanes, hqueued]
    rw [List.getElem?_set_ne hq]
  cases hticked with
  | quiet hgoes hpending hblocked =>
    refine h.replaced hg hle ?_ (fun q hq => helse hq rfl) ⟨_, _, rfl⟩ rfl ?_
    · rw [hself, hpending, hwaiting]
      exact hgoes
    · rw [map_set_of_eq hg hblocked]
      exact h.handshake
  | @submitted t l' hsubmit hgoes hopen hpending hblocked =>
    obtain ⟨hallocator, hqueued⟩ := Allocator.queuedOn_submit hsubmit
    obtain ⟨p, hp, htaken, hports⟩ := Allocator.ports_submit hsubmit
    -- the port owes nothing, as the generator does not wait
    have howed : p.needsRetry = false := by
      have hsame := congrArg (·[port]?) h.handshake
      simp only [List.getElem?_map, hp, hg, Option.map_some, hopen] at hsame
      exact Option.some.inj hsame
    refine h.replaced hg hle ?_ (fun q hq => helse hq ?_) hallocator rfl ?_
    · have hmore : l'.value.2.queuedOn port ++ g'.pending.toList =
          m.allocator.queuedOn port ++ [t] := by
        rw [hqueued, hpending, Origin.txnsOf_cons, if_pos rfl]
        cases l'.value.1 <;> simp
      rw [hself, hmore, hwaiting]
      exact hgoes
    · rw [hqueued, Origin.txnsOf_cons, if_neg hq]
      cases l'.value.1 <;> simp
    · rw [hports, List.map_set, List.map_set, h.handshake, hblocked, htaken]
      unfold RequestorPort.push
      split
      · exact congrArg (List.set _ port) howed
      · rfl

/-! ### The turns of the allocator -/

/-- **Expired locks are dropped.** -/
theorem swept (h : Wired w now m rest n cs) (t : Nat) : Wired w now (m.sweepLocks t) rest n cs := by
  -- sweeping unparks ports; neither queues nor requests in flight are touched
  have hqueued : ∀ q, (m.sweepLocks t).allocator.queuedOn q = m.allocator.queuedOn q := by
    intro q
    obtain ⟨-, ha | ⟨-, ha⟩⟩ := m.sweepLocks_cases t
    · rw [ha]
      exact Allocator.queuedOn_unparkAll m.allocator q
    · rw [ha]
      rfl
  have hframe : (m.sweepLocks t).allocator.outstanding = m.allocator.outstanding ∧
      (m.sweepLocks t).allocator.nextId = m.allocator.nextId ∧
      (m.sweepLocks t).allocator.config = m.allocator.config ∧
      (m.sweepLocks t).allocator.answers = m.allocator.answers ∧
      (m.sweepLocks t).surroundings = m.surroundings := by
    obtain ⟨hs, ha | ⟨-, ha⟩⟩ := m.sweepLocks_cases t
    · rw [ha]
      exact ⟨rfl, rfl, rfl, rfl, hs⟩
    · rw [ha]
      exact ⟨rfl, rfl, rfl, rfl, hs⟩
  obtain ⟨hout, hnext, hconfig, hanswers, hs⟩ := hframe
  refine h.of_same ?_ ?_ hanswers hs
  · unfold Allocator.books
    rw [funext hqueued, hout, hnext, hconfig]
  · rcases swept_cases m t with hports | ⟨hports, -⟩
    · rw [hports]
      unfold Allocator.unparkAll
      rw [List.map_map]
      rfl
    · rw [hports]

/-- A visible head is an access of its port. -/
theorem sited (h : Wired w now m rest n cs) {t port : Nat} {txn : Transaction}
    (hhead : m.allocator.headAt? t port = some txn) : port < w.numPorts ∧ w.Sited port txn := by
  obtain ⟨p, p', hp, hqueued, -⟩ := Assembly.ports_retireHead_of_head (m := m) hhead
  have hport : port < w.numPorts := h.length_ports ▸ (List.getElem?_eq_some_iff.mp hp).1
  refine ⟨hport, h.consistent.sited hport (List.mem_append_left _ ?_)⟩
  unfold Allocator.queuedOn Allocator.queuedIn
  rw [hp, Option.map_some, Option.getD_some, hqueued]
  exact List.mem_cons_self

/-- No visible head spills past its line. -/
theorem checkLineFit_eq (h : Wired w now m rest n cs) {t port : Nat} {txn : Transaction}
    (hhead : m.allocator.headAt? t port = some txn) :
    checkLineFit port txn m.allocator.config.lineSize = .ok () := by
  have hfit := (h.sited hhead).2.sound.stop_le w.isPowerOfTwo_lineSize
  have hstop : txn.stop ≤ txn.addr + txn.size := Nat.min_le_left _ _
  unfold checkLineFit
  rw [h.lineSize_eq]
  simp only
  rw [if_neg]
  omega

/-- The check of a lock changes nothing that is known. -/
theorem cleared {t granted : Nat} {head : Transaction} (h : Wired w now m rest n cs)
    (hcleared : Assembly.Cleared m m' t granted head) : Wired w now m' rest n cs := by
  refine h.of_same (Assembly.books_cleared hcleared) ?_ ?_ hcleared.surroundings
  · rcases hcleared.unlock with hports | hports
    · rw [hports]
    · rw [hports]
      unfold Allocator.unparkAll
      rw [List.map_map]
      rfl
  · obtain ⟨c, table, ports, stats, -, -, -, ha⟩ := hcleared.allocator
    rw [ha]
    rfl

end Wired

/-- A request that the ports may make: for one line, and only loads share it. -/
structure Coalesced.Fair (request : Coalesced) (w : Scenario) (granted : Nat) : Prop where
  /-- The first transaction is that of the granted port. -/
  port_eq : request.first.port = granted
  /-- All transactions are for one line. -/
  uniform : request.Uniform w.lineSize
  /-- Only loads share a request. -/
  alone : request.cmd ≠ .read → request.folded = []
  /-- The ports may make the transactions. -/
  sited : ∀ o ∈ request.origins, o.port < w.numPorts ∧ w.Sited o.port o.txn

namespace Coalesced.Fair

variable {request : Coalesced} {w : Scenario} {granted : Nat}

theorem exists_performs (h : request.Fair w granted) (id : Nat) {d : DelayedMemory}
    (hd : w.stop ≤ d.memory.size) :
    ∃ answer ds e, request.Performs id w.lineSize d answer ds e :=
  Coalesced.exists_performs id w.isPowerOfTwo_lineSize w.dvd_stop hd h.uniform h.alone
    fun o ho => (h.sited o ho).2.sound

/-- What it tells other lanes does not concern their private regions. -/
theorem farFrom (h : request.Fair w granted) (id : Nat) :
    w.FarFrom ((request.toBackend id w.lineSize).cmd.snoop? (request.toBackend id w.lineSize).addr
      (request.toBackend id w.lineSize).size granted) := by
  intro snoop hsnoop port hport hne
  obtain ⟨kind, hkind, rfl⟩ := Option.map_eq_some_iff.mp hsnoop
  rw [Coalesced.cmd_toBackend] at hkind
  have hread : request.cmd ≠ .read := fun heq => by rw [heq] at hkind; cases hkind
  have hexclusive : request.first.txn.cmd.isExclusive = true := by
    show request.cmd.isExclusive = true
    cases hcmd : request.cmd <;> first | rfl | (rw [hcmd] at hkind; cases hkind)
  have hsited := (h.sited _ List.mem_cons_self).2
  rw [h.port_eq] at hsited
  simp only [Coalesced.addr_toBackend id w.lineSize hread]
  exact hsited.not_owns hexclusive hport hne

end Coalesced.Fair

namespace Wired

variable {w : Scenario} {now n t granted : Nat} {m m' : Plant} {rest : List (Nat × Response)}
  {cs : List (Nat × Nat × Response)} {request : Coalesced} {offered : BackendRequest}

/-- What is formed of visible heads, the ports may make. -/
theorem fair {head : Transaction} (h : Wired w now m rest n cs)
    (hformed : request.FormedFrom m.allocator t granted head) : request.Fair w granted where
  port_eq := by rw [hformed.first]
  uniform := h.lineSize_eq ▸ hformed.uniform
  alone hcmd := hformed.folded_eq_nil (hformed.cmd_eq ▸ hcmd)
  sited o ho := h.sited (hformed.visible o ho)

/-- A fair request breaks no contract. -/
theorem not_breaks (h : Wired w now m rest n cs) (hfair : request.Fair w granted) {a : Assertion} :
    ¬ Assembly.Breaks m t granted
      (request.toBackend m.allocator.nextId m.allocator.config.lineSize) a := by
  rw [h.lineSize_eq]
  obtain ⟨answer, ds, e, hperforms⟩ :=
    hfair.exists_performs m.allocator.nextId h.consistent.stop_le
  rintro (herror | ⟨s, notices, haccept, hbreaks⟩)
  · obtain ⟨l, haccept, -⟩ := DelayedMemory.exists_accept t hperforms.perform
    have hdef : Backend.accept t (request.toBackend m.allocator.nextId w.lineSize) m.surroundings =
        (m.memory.accept t (request.toBackend m.allocator.nextId w.lineSize)).map fun l =>
          l.map fun r => (r.1, (m.surroundings.1, r.2)) := rfl
    rw [hdef, haccept] at herror
    cases herror
  · have hplaced := h.consistent.placed
    unfold Plant.lanes at hplaced
    rw [← requestors_accept haccept] at hplaced
    exact hplaced.not_breaksOver (hfair.farFrom _) hbreaks

/-- **The memory refuses a request.** -/
theorem refused (h : Wired w now m rest n cs) (hfair : request.Fair w granted)
    (hrefuses : Assembly.Refuses m m' t offered request) : Wired w now m' rest n cs := by
  obtain ⟨answer, ds, e, hperforms⟩ :=
    hfair.exists_performs m.allocator.nextId h.consistent.stop_le
  obtain ⟨notices, haccept⟩ := hrefuses.refused
  rw [hrefuses.sent_eq, h.lineSize_eq] at haccept
  obtain ⟨stats, ha⟩ := hrefuses.allocator
  have hlanes : m'.lanes = m.lanes := congrArg Generators.lanes (requestors_accept haccept)
  have haccept : m.memory.accept t _ = .ok ⟨(false, m'.memory), notices⟩ := accept_pair haccept
  obtain ⟨hagrees, hheld⟩ := DelayedMemory.accept_refused haccept
  -- whether the memory takes the request or not, it does not fault on it
  have hfault : m'.memory.fault = m.memory.fault := by
    obtain ⟨l, hl, hfault⟩ := DelayedMemory.exists_accept t hperforms.perform
    rw [haccept] at hl
    cases hl
    exact hfault
  refine h.of_core ?_ ?_ (congrArg _ hlanes) hagrees (hfault.trans h.fault_eq) ?_
  · rw [ha]
    rfl
  · rw [ha, hlanes]
    exact h.handshake
  · unfold Plant.answers
    rw [ha, hheld]
    rfl

/-- Heads that leave their queues are served by the memory, one after the other. -/
theorem served {id : Nat} {ds : List (Nat × Nat × Response)} {e : DelayedMemory}
    {due : List (Nat × Response)} (h : Wired w now m rest n cs) (hfair : request.Fair w granted)
    (hserial : m.memory.serially (request.origins.map fun o => (id, o)) = .ok (ds, e))
    (hqueued : ∀ q, m.allocator.queuedOn q =
      Origin.txnsOf q request.origins ++ m'.allocator.queuedOn q)
    (hcore : m'.lanes.map Generator.core = m.lanes.map Generator.core) (he : e.Agrees m'.memory)
    (hdue : due.Perm (m.allocator.books.due cs ++ ds.map (·.2))) :
    Consistent w now m'.lanes m'.waiting (rest ++ due) m'.memory
      (n + ds.countP (·.2.2.increments)) := by
  have hwaiting : ∀ q, m.waiting q = Origin.txnsOf q request.origins ++ m'.waiting q := by
    intro q
    have hpending := congrArg (·[q]?.bind (·.2.1)) hcore
    simp only [List.getElem?_map, Option.bind_map] at hpending
    have hpending : m'.lanes[q]?.bind (·.pending) = m.lanes[q]?.bind (·.pending) := hpending
    unfold Plant.waiting
    rw [hqueued, hpending, List.append_assoc]
  have hperformed := h.consistent.serially (fun o ho => (hfair.sited o ho).1) hwaiting hserial
  refine ((hperformed.of_core hcore).of_agrees he).perm ?_
  rw [List.append_assoc]
  exact List.Perm.append_left rest hdue.symm

/-- What a request that goes out leaves of the memory and of the generators: the
memory performs it, its answer is on its way, and lanes are told of it and may
try again. -/
theorem performs (h : Wired w now m rest n cs) (hfair : request.Fair w granted)
    (hsends : Assembly.Sends m m' t granted offered request) :
    ∃ answer ds e, request.Performs m.allocator.nextId w.lineSize m.memory answer ds e ∧
      e.Agrees m'.memory ∧ m'.memory.fault = none ∧ m'.answers = m.answers ++ [answer] ∧
      m'.lanes.map Generator.core = m.lanes.map Generator.core ∧
      m'.allocator.ports.map (·.needsRetry) = m'.lanes.map (·.blocked) := by
  obtain ⟨answer, ds, e, hperforms⟩ :=
    hfair.exists_performs m.allocator.nextId h.consistent.stop_le
  obtain ⟨ports, stats, locks, -, ha⟩ := hsends.allocator
  obtain ⟨s, notices, u, haccept, hsnooped, hretired⟩ := hsends.retired
  rw [hsends.sent_eq, h.lineSize_eq] at haccept hsnooped
  have hlanes : s.1 = m.surroundings.1 := requestors_accept haccept
  have haccept : m.memory.accept t _ = .ok ⟨(true, s.2), notices⟩ := accept_pair haccept
  obtain ⟨hagrees, hheld⟩ := DelayedMemory.accept_accepted haccept hperforms.perform
  -- the request is one the memory performs without a fault
  have hfault : s.2.fault = m.memory.fault := by
    obtain ⟨l, hl, hfault⟩ := DelayedMemory.exists_accept t hperforms.perform
    rw [haccept] at hl
    cases hl
    exact hfault
  have hplaced := h.consistent.placed
  unfold Plant.lanes at hplaced
  rw [← hlanes] at hplaced
  -- the snoop passes the generators, which own nothing of the line
  obtain ⟨hmemory, hcore, hblocked⟩ := hplaced.snooped (hfair.farFrom _) hsnooped
  obtain ⟨hmemory', hcore', hand⟩ := retired_lanes hretired (by
    rw [hblocked, hlanes]
    exact h.handshake)
  have hm' : m'.memory = s.2 := hmemory'.trans hmemory
  refine ⟨answer, ds, e, hperforms, hm' ▸ hagrees, ?_, ?_, ?_, hand⟩
  · rw [hm', hfault]
    exact h.fault_eq
  · unfold Plant.answers
    rw [hm', hheld, ha, List.append_assoc]
    rfl
  · exact hcore'.trans (hcore.trans (by rw [hlanes]; rfl))

/-- A store-conditional that goes out is an increment if its answer tells of
success. -/
theorem incrementsBy_eq {answer : BackendResponse} {ds : List (Nat × Nat × Response)}
    {e : DelayedMemory} (h : Wired w now m rest n cs) (hfair : request.Fair w granted)
    (hsends : Assembly.Sends m m' t granted offered request)
    (hperforms : request.Performs m.allocator.nextId w.lineSize m.memory answer ds e) :
    m.incrementsBy (.sent granted offered request) = ds.countP (·.2.2.increments) := by
  have hcount := Coalesced.countP_fanOut hperforms.completes (fun o ho => (hfair.uniform o ho).2)
    hfair.alone
  rw [List.countP_map] at hcount
  unfold Plant.incrementsBy
  rw [hsends.sent_eq, h.lineSize_eq]
  simp only [hperforms.perform, Coalesced.cmd_toBackend]
  exact hcount.symm

/-- **A request goes out.** -/
theorem sent (h : Wired w now m rest n cs) (hfair : request.Fair w granted)
    (hsends : Assembly.Sends m m' t granted offered request) :
    ∃ cs', Wired w now m' rest (n + m.incrementsBy (.sent granted offered request)) cs' := by
  obtain ⟨answer, ds, e, hperforms, hagrees, hfault, hanswers, hcore, hand⟩ :=
    h.performs hfair hsends
  obtain ⟨ports, stats, locks, -, ha⟩ := hsends.allocator
  have hlineSize : m.allocator.books.config.lineSize = w.lineSize := h.lineSize_eq
  have hout : m'.allocator.books.outstanding =
      m.allocator.books.outstanding.insert m.allocator.books.nextId request := by rw [ha]; rfl
  have hnext : m'.allocator.books.nextId = m.allocator.books.nextId + 1 := by rw [ha]; rfl
  have hconfig : m'.allocator.books.config = m.allocator.books.config := by rw [ha]; rfl
  -- the answer joins those still to come, behind all of them
  obtain ⟨hflight, hdue⟩ := h.flight.sent (hlineSize.symm ▸ hfair.uniform) hfair.alone
    (hlineSize.symm ▸ hperforms) hout hnext hconfig
  refine ⟨cs ++ ds, ?_, hfault, hand, ?_, ?_⟩
  · rw [ha]
    exact h.lineSize_eq
  · rw [hanswers, hagrees.memory]
    exact hflight
  · rw [h.incrementsBy_eq hfair hsends hperforms]
    exact h.served hfair hperforms.serial hsends.queuedOn hcore hagrees (hdue ▸ .refl _)

/-- **Heads are folded into a load in flight.** -/
theorem folded {id : Nat} (h : Wired w now m rest n cs) (hfair : request.Fair w granted)
    (hread : request.cmd = .read) (hfolds : Assembly.Folds m m' t granted id request) :
    ∃ cs', Wired w now m' rest n cs' := by
  obtain ⟨pending, merged, ports, stats, hget, hmerged, ha⟩ := hfolds.allocator
  obtain ⟨-, hlast, -⟩ := Allocator.foldTarget?_eq_some hread hfolds.target
  obtain ⟨hmemory, hcore, hand⟩ := retired_lanes hfolds.retired h.handshake
  have hm' : m'.memory = m.memory := hmemory
  have hlineSize : m.allocator.books.config.lineSize = w.lineSize := h.lineSize_eq
  have hout : m'.allocator.books.outstanding = m.allocator.books.outstanding.insert id merged := by
    rw [ha]
    rfl
  have hnext : m'.allocator.books.nextId = m.allocator.books.nextId := by rw [ha]; rfl
  have hconfig : m'.allocator.books.config = m.allocator.books.config := by rw [ha]; rfl
  have hsound : ∀ o ∈ request.origins,
      o.txn.Sound m.allocator.books.config.lineSize w.stop := by
    rw [hlineSize]
    exact fun o ho => (hfair.sited o ho).2.sound
  obtain ⟨ds, hserial, hflight, hdue⟩ := h.flight.folded hget hlast hmerged
    (hlineSize.symm ▸ w.isPowerOfTwo_lineSize) h.consistent.stop_le
      (hlineSize.symm ▸ hfair.uniform)
    hsound hout hnext hconfig
  -- loads only: no increment is learned by a fold
  have hnone := DelayedMemory.countP_reads hserial fun o ho => (hfair.uniform o ho).2.trans hread
  refine ⟨cs ++ ds, ?_, ?_, hand, ?_, ?_⟩
  · rw [ha]
    exact h.lineSize_eq
  · rw [hm']
    exact h.fault_eq
  · have hanswers : m'.answers = m.answers := Plant.answers_congr hm' (by rw [ha]; rfl)
    rw [hanswers, hm']
    exact hflight
  · have hserved := h.served hfair hserial hfolds.queuedOn hcore (hm' ▸ .refl _) hdue
    rw [hnone] at hserved
    exact hserved

/-- **A turn of the issue loop goes through.** -/
theorem turned {result : Except Failure Turn} (h : Wired w now m rest n cs)
    (hturned : Assembly.Turned m t result m') :
    ∃ turn cs', result = .ok turn ∧ Wired w now m' rest (n + m.incrementsBy turn) cs' := by
  cases hturned with
  | idle _ => exact ⟨_, cs, rfl, h⟩
  | parked _ _ ha hqueued hs =>
    obtain ⟨p, stats, hp, ha⟩ := ha
    refine ⟨_, cs, rfl, h.of_same ?_ ?_ ?_ hs⟩
    · unfold Allocator.books
      rw [funext hqueued, ha]
    · rw [ha]
      exact map_set_of_eq hp rfl
    · rw [ha]
      rfl
  -- the generators make accesses within a line
  | spilled _ hhead hspill _ =>
    rw [h.checkLineFit_eq hhead] at hspill
    cases hspill
  | @served m₁ _ _ _ _ _ hcleared hformed hserved =>
    have hfair := h.fair hformed
    have h₁ := h.cleared hcleared
    have hsame : ∀ turn, m.incrementsBy turn = Plant.incrementsBy m₁ turn := by
      intro turn
      unfold Plant.incrementsBy Plant.memory
      rw [hcleared.surroundings]
    cases hserved with
    | broken a _ hbreaks => exact absurd hbreaks (h₁.not_breaks hfair)
    | duplicate _ _ hused =>
      -- the next identifier is above all those in flight
      have hfree := h₁.flight.numbered.contains_eq
      have hused : m₁.allocator.books.outstanding.contains m₁.allocator.books.nextId = true :=
        hused
      rw [hfree] at hused
      cases hused
    | refused hrefuses => exact ⟨_, cs, rfl, h₁.refused hfair hrefuses⟩
    | sent hsends _ =>
      obtain ⟨cs', h'⟩ := h₁.sent hfair hsends
      exact ⟨_, cs', rfl, hsame _ ▸ h'⟩
    | folded hfolds hread =>
      obtain ⟨cs', h'⟩ := h₁.folded hfair hread hfolds
      exact ⟨_, cs', rfl, h'⟩

end Wired

end MemPort
