import MemPort.Proofs.Moves
import MemPort.Proofs.SimulationCycles
import MemPort.Proofs.Tallies

/-!
# What happens in a simulation

Accesses are made and submitted by generators, and their completions are handed
back.  The history of a simulation is the list of these happenings; it is
computed along the cycles, and what a cycle that fails has done so far belongs
to it.

Between its start and the end of a cycle a simulation takes a path of pieces: a
generator has its part, an answer is handed out, a turn is taken, generators
pass a barrier, or nothing happens that matters to accesses (`Plant.Piece`).
The history is what happens along the path, so that a property of all histories
is proved with one case for each kind of piece.

## Main definitions

* `Happening`, `Simulation.history` — what happens to accesses.
* `Plant.Rests` — what stays as it is where nothing happens to accesses.
* `Plant.Piece`, `Plant.Pieces` — the pieces of cycles, and paths of them.

## Main results

* `Simulation.path_history` — there is a path along which the history happens,
  and it leads to the simulation after the cycles.

## References

`SPEC_FULL.md`, section 10.7: the order of a cycle, and what is exchanged in it.
-/

namespace MemPort

/-- What happens to an access of a port. -/
inductive Happening where
  /-- A generator makes it, as one of the accesses of a pattern. -/
  | made (port pattern : Nat) (txn : Transaction)
  /-- It is submitted, and taken or refused. -/
  | submitted (port : Nat) (txn : Transaction) (taken : Bool)
  /-- A completion is handed to a generator. -/
  | completed (port : Nat) (response : Response)
  deriving DecidableEq, Repr

/-- Whether a submission is taken. -/
def Allocator.takes (a : Allocator) (now port : Nat) (txn : Transaction) : Bool :=
  match a.submit now port txn with
  | .error _ => false
  | .ok l => l.value.1

/-- What happens in a generator's part of a cycle. -/
def Generator.happenings (g : Generator) (now : Nat) (set : PatternSet) (a : Allocator) :
    List Happening :=
  match g.offer? now set with
  | none => []
  | some (isNew, txn) =>
      (if isNew then [.made g.port g.pattern txn] else []) ++
        [.submitted g.port txn (a.takes now g.port txn)]

namespace Assembly

variable {σ : Type} [Requestors σ] [Backend σ]

/-- The completions of the transactions behind an answer. -/
def completionsOf (m : Assembly σ) (response : BackendResponse) : List (Nat × Response) :=
  match m.allocator.outstanding.get? response.id with
  | none => []
  | some request => (request.fanOut response).toOption.getD []

/-- The completions that are handed out in a cycle, as far as answers go through. -/
def completionsIn (now : Nat) (m : Assembly σ) : List (Nat × Response) :=
  match _hd : m.allocator.backendPort.drain? now with
  | none => []
  | some (response, port) =>
      match _ha : (m.update fun a => { a with backendPort := port }).answer now response with
      | .error _ _ => []
      | .ok () m' => m.completionsOf response ++ completionsIn now m'
termination_by m.allocator.backendPort.pending
decreasing_by exact pending_drain_lt _hd _ha

end Assembly

namespace Simulation

/-- What happens when the generators of some ports have their turns. -/
def trafficHappenings (now : Nat) (s : Simulation) : List Nat → List Happening
  | [] => []
  | port :: rest =>
      match s.generators[port]?, s.generatorTurn now port with
      | some g, .ok () s' =>
          g.happenings now s.set s.assembly.allocator ++ trafficHappenings now s' rest
      | none, .ok () s' => trafficHappenings now s' rest
      | _, .error _ _ => []

/-- What happens in a cycle, as far as it goes through. -/
def happeningsIn (s : Simulation) (now : Nat) : List Happening :=
  match s.memoryTurn now with
  | .error _ _ => []
  | .ok () s =>
      let ports := List.range s.generators.length
      trafficHappenings now s ports ++
        match trafficTurn now s ports with
        | .error _ _ => []
        | .ok () s => (s.assembly.completionsIn now).map fun c => .completed c.1 c.2

/-- What happens in the first cycles. -/
def history (s : Simulation) : Nat → List Happening
  | 0 => []
  | n + 1 =>
      s.history n ++
        match s.afterCycles n with
        | .error _ _ => []
        | .ok () s => happeningsIn { s with cycle := n } n

end Simulation

/-! ### Paths -/

namespace Plant

/-- Nothing happens to accesses; lanes may be told of snoops and of leaves. -/
structure Rests (m m' : Plant) : Prop where
  /-- No transaction is queued, and none goes out. -/
  books : m'.allocator.books = m.allocator.books
  /-- Nothing is counted of transactions. -/
  traffic : m'.allocator.stats.traffic = m.allocator.stats.traffic
  /-- The generators are at most told something. -/
  lanes : Hears m.lanes m'.lanes
  /-- Answers only move on. -/
  answers : m'.answers = m.answers
  /-- What the memory found wrong stays wrong. -/
  fault : m'.memory.fault = none → m.memory.fault = none
  /-- The memory takes no request. -/
  accepted : m'.memory.stats.accepted = m.memory.stats.accepted
  /-- Answers that the memory no longer holds back are counted. -/
  responses : m'.memory.stats.responses + m'.memory.heldBack.length =
    m.memory.stats.responses + m.memory.heldBack.length
  /-- No store-conditional fails. -/
  scFailures : m'.memory.stats.scFailures = m.memory.stats.scFailures

end Plant

/-- A generator after a barrier, if it waits at it. -/
def Generator.passed (g : Generator) (set : PatternSet) : Generator :=
  if g.atBarrier then (g.advance set).2 else g

/-- What passing a barrier leaves as it was. -/
theorem Generator.passed_frame (g : Generator) (set : PatternSet) :
    ∃ pattern reqIndex phase finishedAt, g.passed set =
      { g with pattern, reqIndex, phase, stats := { g.stats with finishedAt } } := by
  unfold passed advance
  split
  · simp only
    split
    · exact ⟨_, _, _, _, rfl⟩
    · exact ⟨_, _, _, g.stats.finishedAt, rfl⟩
  · exact ⟨_, _, _, g.stats.finishedAt, rfl⟩

namespace Plant

/-- A piece of a cycle, with what happens in it. -/
inductive Piece (set : PatternSet) (lockstep : Bool) (m : Plant) : List Happening → Plant → Prop
  /-- A generator has its part of the cycle. -/
  | moves {now port : Nat} {g : Generator} {l : Logged (Option Nat × Generator × Allocator)}
      (j : Journal) (hg : m.lanes[port]? = some g) (h : g.tick now set m.allocator = .ok l) :
      Piece set lockstep m (g.happenings now set m.allocator)
        ⟨l.value.2.2, (⟨m.lanes.set port l.value.2.1⟩, m.memory), j⟩
  /-- An answer is handed out. -/
  | answers {now : Nat} {response : BackendResponse} {port : BackendPort} {m' : Plant}
      (hdrain : m.allocator.backendPort.drain? now = some (response, port))
      (h : (m.update fun a => { a with backendPort := port }).answer now response = .ok () m') :
      Piece set lockstep m ((m.completionsOf response).map fun c => .completed c.1 c.2) m'
  /-- A turn is taken. -/
  | turns {now : Nat} {turn : Turn} {m' : Plant} (hbusy : m.allocator.backendPort.busy = false)
      (h : m.issueTurn now = .ok turn m') : Piece set lockstep m [] m'
  /-- Generators that wait at a barrier pass it; in lockstep only all of them
  together. -/
  | passes (hall : lockstep = true → ∀ g ∈ m.lanes, g.atBarrier = true) :
      Piece set lockstep m []
        { m with surroundings := (⟨m.lanes.map (·.passed set)⟩, m.memory) }
  /-- Nothing happens. -/
  | rests {m' : Plant} (h : m.Rests m') : Piece set lockstep m [] m'

/-- A path of pieces, with what happens along it. -/
inductive Pieces (set : PatternSet) (lockstep : Bool) (m : Plant) :
    List Happening → Plant → Prop
  /-- The path ends where it begins. -/
  | nil : Pieces set lockstep m [] m
  /-- One more piece. -/
  | snoc {hs hs' : List Happening} {m₁ m' : Plant} (h : Pieces set lockstep m hs m₁)
      (hpiece : Piece set lockstep m₁ hs' m') : Pieces set lockstep m (hs ++ hs') m'

namespace Pieces

variable {set : PatternSet} {lockstep : Bool} {m m₁ m' : Plant} {hs hs' : List Happening}

theorem trans (h : Pieces set lockstep m hs m₁) (h' : Pieces set lockstep m₁ hs' m') :
    Pieces set lockstep m (hs ++ hs') m' := by
  induction h' with
  | nil =>
    rw [List.append_nil]
    exact h
  | snoc _ hpiece ih =>
    rw [← List.append_assoc]
    exact ih.snoc hpiece

/-- A single piece is a path. -/
theorem single (hpiece : Piece set lockstep m hs m') : Pieces set lockstep m hs m' := by
  have hone := Pieces.nil.snoc hpiece
  rw [List.nil_append] at hone
  exact hone

theorem rests (h : Pieces set lockstep m hs m₁) (hrests : m₁.Rests m') :
    Pieces set lockstep m hs m' := by
  have hmore := h.snoc (.rests hrests)
  rw [List.append_nil] at hmore
  exact hmore

/-- **What every piece keeps, a path keeps.** -/
theorem induct {P : List Happening → Plant → Prop} (h : Pieces set lockstep m hs m')
    (hstart : P [] m)
    (hstep : ∀ hs hs' m₁ m₂, P hs m₁ → Piece set lockstep m₁ hs' m₂ →
      P (hs ++ hs') m₂) : P hs m' := by
  induction h with
  | nil => exact hstart
  | snoc _ hpiece ih => exact hstep _ _ _ _ ih hpiece

end Pieces

end Plant

/-! ### What the memory counts -/

namespace DelayedMemory

variable {d e : DelayedMemory} {request : BackendRequest} {answer : BackendResponse}

/-- Only a store-conditional without a reservation is counted, and its answer
tells of it. -/
theorem stats_perform (h : d.perform request = .ok (answer, e)) :
    e.stats = { d.stats with scFailures := d.stats.scFailures + (!answer.success).toNat } ∧
      (answer.success = false → request.cmd = .storeCond) := by
  have hstore : ∀ {d' : DelayedMemory}, d.storeFor request = .ok d' → d'.stats = d.stats := by
    intro d' hd'
    obtain ⟨memory, -, rfl⟩ := exists_of_map_eq_ok hd'
    rfl
  cases performed_of_perform h with
  | loaded => exact ⟨rfl, nofun⟩
  | reserved => exact ⟨rfl, nofun⟩
  | stored _ hstored => exact ⟨hstore hstored, nofun⟩
  | swapped _ _ hstored => exact ⟨hstore hstored, nofun⟩
  | kept _ _ hstored => exact ⟨hstore hstored, nofun⟩
  | lost hcmd => exact ⟨rfl, fun _ => hcmd⟩

/-- An access at once that is no store-conditional is not counted. -/
theorem stats_access {l : Logged (BackendResponse × DelayedMemory)} (h : d.access request = .ok l)
    (hcmd : request.cmd ≠ .storeCond) :
    l.value.2.stats = d.stats ∧ (l.value.2.fault = none → d.fault = none) := by
  unfold access at h
  split at h
  · rename_i r hperform
    cases h
    obtain ⟨hstats, hfailure⟩ := stats_perform hperform
    have hsuccess : r.1.success = true := by
      -- only a store-conditional can fail, so this access succeeded
      cases hs : r.1.success with
      | true => rfl
      | false => exact absurd (hfailure hs) hcmd
    rw [hsuccess] at hstats
    exact ⟨hstats, fun hnone => (fault_perform hperform).symm.trans hnone⟩
  · cases h
  · cases h
    refine ⟨rfl, fun hnone => ?_⟩
    exact (Option.or_eq_none_iff.mp hnone).1

/-- Answers that are offered are held back or counted. -/
theorem stats_offerAnswers (now : Nat) (d : DelayedMemory) (a : Allocator) :
    (d.offerAnswers now a).value.1.stats.accepted = d.stats.accepted ∧
      (d.offerAnswers now a).value.1.stats.scFailures = d.stats.scFailures ∧
      (d.offerAnswers now a).value.1.stats.responses +
          (d.offerAnswers now a).value.1.heldBack.length =
        d.stats.responses + d.heldBack.length := by
  fun_induction offerAnswers now d a with
  | case1 d a _ => exact ⟨rfl, rfl, rfl⟩
  | case2 d a _ _ => exact ⟨rfl, rfl, rfl⟩
  | case3 d a _ head inflight hpop offered htaken m m' ih =>
    obtain ⟨haccepted, hfailures, hresponses⟩ := ih offered.value
    rw [Logged.value_andThen]
    refine ⟨haccepted, hfailures, hresponses.trans ?_⟩
    have hheld : d.heldBack = head.payload :: m'.heldBack := heldBack_pop? hpop
    have hcount : m'.stats.responses = d.stats.responses + 1 := rfl
    rw [hheld, List.length_cons, hcount]
    omega
  | case4 d a _ head inflight hpop offered htaken m m' =>
    rw [Logged.value_andThen]
    exact ⟨rfl, rfl, rfl⟩

theorem stats_tick (now : Nat) (d : DelayedMemory) (a : Allocator) :
    (d.tick now a).value.1.stats.accepted = d.stats.accepted ∧
      (d.tick now a).value.1.stats.scFailures = d.stats.scFailures ∧
      (d.tick now a).value.1.stats.responses + (d.tick now a).value.1.heldBack.length =
        d.stats.responses + d.heldBack.length := by
  obtain ⟨_, hframe⟩ := d.frame_tick now a
  rw [hframe]
  exact stats_offerAnswers now d a

end DelayedMemory

/-! ### Where nothing happens -/

namespace Plant.Rests

variable {m m' : Plant} {now : Nat}

/-- The parts that are not touched need no argument. -/
theorem of_surroundings (hbooks : m'.allocator.books = m.allocator.books)
    (htraffic : m'.allocator.stats.traffic = m.allocator.stats.traffic)
    (hanswers : m'.allocator.answers = m.allocator.answers)
    (hs : m'.surroundings = m.surroundings) : m.Rests m' := by
  have hlanes : m'.lanes = m.lanes := congrArg (·.1.lanes) hs
  have hmemory : m'.memory = m.memory := congrArg Prod.snd hs
  refine ⟨hbooks, htraffic, hlanes ▸ .refl, answers_congr hmemory hanswers, ?_, ?_, ?_, ?_⟩
  · rw [hmemory]
    exact id
  · rw [hmemory]
  · rw [hmemory]
  · rw [hmemory]

/-- The memory offers its answers. -/
theorem memoryTurn (m : Plant) (now : Nat) (j : Journal) :
    m.Rests ⟨(m.memory.tick now m.allocator).value.2,
      (m.surroundings.1, (m.memory.tick now m.allocator).value.1), j⟩ := by
  obtain ⟨-, hrelays, hanswers⟩ := DelayedMemory.of_tick now m.memory m.allocator
  obtain ⟨haccepted, hfailures, hresponses⟩ := DelayedMemory.stats_tick now m.memory m.allocator
  refine ⟨hrelays.books, hrelays.traffic, .refl, hanswers, fun hnone => ?_, haccepted, hresponses,
    hfailures⟩
  exact (DelayedMemory.fault_tick now m.memory m.allocator).symm.trans hnone

theorem settleResponses (m : Plant) : m.Rests m.settleResponses := by
  unfold Assembly.settleResponses
  simp only
  split
  · exact ⟨rfl, rfl, .refl, rfl, id, rfl, rfl, rfl⟩
  · exact .of_surroundings rfl rfl rfl rfl

theorem sweepLocks (m : Plant) (now : Nat) : m.Rests (m.sweepLocks now) := by
  obtain ⟨hs, ha | ⟨-, ha⟩⟩ := Assembly.sweepLocks_cases m now
  · refine .of_surroundings ?_ (m.traffic_sweepLocks now) (by rw [ha]; rfl) hs
    rw [ha]
    exact congrArg
      (fun q => (⟨q, m.allocator.outstanding, m.allocator.nextId, m.allocator.config⟩ :
      Books)) (funext (Allocator.queuedOn_unparkAll m.allocator))
  · exact .of_surroundings (by rw [ha]; rfl) (m.traffic_sweepLocks now) (by rw [ha]; rfl) hs

theorem checkProgress (h : m.checkProgress now = .ok () m') : m.Rests m' := by
  obtain ⟨⟨next, ha⟩, hs⟩ := m.frame_checkProgress now
  rw [h] at ha hs
  have ha : m'.allocator = _ := ha
  refine .of_surroundings ?_ ?_ ?_ hs
  · rw [ha]
    rfl
  · rw [ha]
  · rw [ha]
    rfl

/-- An access at once is not seen by those that are queued. -/
theorem accessFunctional {port : Nat} {txn : Transaction} {response : Response}
    (h : m.accessFunctional now port txn = .ok response m') (hcmd : txn.cmd ≠ .storeCond) :
    m.Rests m' := by
  have htraffic := Assembly.traffic_accessFunctional h
  obtain ⟨-, m₁, l, htold, haccess, -, rfl⟩ := Assembly.accessFunctional_eq_ok h
  obtain ⟨⟨stats, ha⟩, hsnooped⟩ := Assembly.frame_broadcast? htold
  -- the snoops reach the generators, the access the memory
  obtain ⟨hlanes, hmemory⟩ := hsnooped.notified.hears
  obtain ⟨l', haccess', heq⟩ := exists_of_map_eq_ok haccess
  cases heq
  obtain ⟨hstats, hfault⟩ := DelayedMemory.stats_access haccess' hcmd
  have hinflight := DelayedMemory.inflight_access haccess'
  -- a functional access answers at once: what the memory holds back stays
  have hheld : l'.value.2.heldBack = m.memory.heldBack := by
    unfold DelayedMemory.heldBack
    rw [hinflight]
    exact congrArg (fun d : DelayedMemory => d.inflight.entries.map (·.payload)) hmemory
  have hstats : l'.value.2.stats = m.memory.stats :=
    hstats.trans (congrArg DelayedMemory.stats hmemory)
  refine ⟨?_, htraffic, hlanes, ?_, fun hnone => ?_, ?_, ?_, ?_⟩
  · rw [Assembly.allocator_update, Assembly.allocator_count]
    simp only [ha]
    rfl
  · have hanswers : m₁.allocator.answers = m.allocator.answers := by
      rw [ha]
      rfl
    show m₁.allocator.answers ++ l'.value.2.heldBack = m.allocator.answers ++ m.memory.heldBack
    rw [hanswers, hheld]
  · exact (congrArg DelayedMemory.fault hmemory).symm.trans (hfault hnone)
  · exact congrArg MemoryCounters.accepted hstats
  · show l'.value.2.stats.responses + l'.value.2.heldBack.length = _
    rw [hstats, hheld]
  · exact congrArg MemoryCounters.scFailures hstats

end Plant.Rests

/-! ### What becomes of the lanes -/

namespace Plant

/-- In a turn lanes are told of leaves and of snoops. -/
theorem hears_turned {m m' : Plant} {now : Nat} {turn : Turn} (h : m.Turned now (.ok turn) m') :
    Hears m.lanes m'.lanes := by
  cases h with
  | idle _ => exact .refl
  | parked _ _ _ _ hs _ =>
    have hlanes : m'.lanes = m.lanes := congrArg (·.1.lanes) hs
    exact hlanes ▸ .refl
  | @served m₁ _ _ _ _ _ hcleared _ hserved =>
    have hlanes : Plant.lanes m₁ = m.lanes := congrArg (·.1.lanes) hcleared.surroundings
    rw [← hlanes]
    cases hserved with
    -- a refused offer tells no generator anything
    | refused hrefuses =>
      obtain ⟨notices, haccept⟩ := hrefuses.refused
      have hsame : m'.lanes = Plant.lanes m₁ :=
        congrArg Generators.lanes (requestors_accept haccept)
      exact hsame ▸ .refl
    | sent hsends _ =>
      obtain ⟨s, notices, haccept, hnotified⟩ := hsends.accepted
      have hsame : s.1.lanes = Plant.lanes m₁ :=
        congrArg Generators.lanes (requestors_accept haccept)
      exact hsame ▸ hnotified.hears.1
    | folded hfolds _ => exact hfolds.surroundings.hears.1

/-- **An answer is handed out to the transactions behind its request**, and the
memory is not concerned. -/
theorem takes_of_answer {m m' : Plant} {now : Nat} {response : BackendResponse} {port : BackendPort}
    (h : (m.update fun a => { a with backendPort := port }).answer now response = .ok () m') :
    ∃ request, m.allocator.outstanding.get? response.id = some request ∧
      request.fanOut response = .ok (m.completionsOf response) ∧
      Takes m.lanes (m.completionsOf response) m'.lanes ∧ m'.memory = m.memory := by
  obtain ⟨request, cs, m₁, hget, hfan, hdelivered, rfl⟩ := Assembly.answer_eq_ok h
  have hget : m.allocator.outstanding.get? response.id = some request := hget
  have hcompletions : m.completionsOf response = cs := by
    unfold Assembly.completionsOf
    rw [hget]
    simp only [hfan]
    rfl
  have htakes := takes_of_deliverAll hdelivered
  rw [hcompletions]
  exact ⟨request, hget, hfan, htakes⟩

end Plant

/-! ### The path of a cycle -/

namespace Assembly

variable {σ : Type} [Requestors σ] [Backend σ] {m m' : Assembly σ} {now : Nat}
  {response : BackendResponse} {port : BackendPort}

omit [Backend σ] in
theorem completionsIn_of_none (h : m.allocator.backendPort.drain? now = none) :
    m.completionsIn now = [] := by
  rw [completionsIn]
  split
  · rfl
  · rename_i hdrain
    rw [h] at hdrain
    cases hdrain

omit [Backend σ] in
theorem completionsIn_of_error {e : Failure}
    (hdrain : m.allocator.backendPort.drain? now = some (response, port))
    (h : (m.update fun a => { a with backendPort := port }).answer now response = .error e m') :
    m.completionsIn now = [] := by
  rw [completionsIn]
  split
  · rfl
  · rename_i hdrain'
    rw [hdrain] at hdrain'
    cases hdrain'
    split
    · rfl
    · rename_i h'
      rw [h] at h'
      cases h'

omit [Backend σ] in
theorem completionsIn_of_answer
    (hdrain : m.allocator.backendPort.drain? now = some (response, port))
    (h : (m.update fun a => { a with backendPort := port }).answer now response = .ok () m') :
    m.completionsIn now = m.completionsOf response ++ m'.completionsIn now := by
  rw [completionsIn]
  -- one round of the recursion: both matches are already decided
  split
  · rename_i hnone
    rw [hdrain] at hnone
    cases hnone
  · rename_i hdrain'
    rw [hdrain] at hdrain'
    cases hdrain'
    split
    · rename_i h'
      rw [h] at h'
      cases h'
    · rename_i m₁ h'
      rw [h] at h'
      cases h'
      rfl

end Assembly

namespace Plant

variable (set : PatternSet) (lockstep : Bool)

/-- Answers are handed out one after the other. -/
theorem path_drainLoop (now : Nat) (drained : Bool) (m : Plant) :
    ∃ m', Pieces set lockstep m ((m.completionsIn now).map fun c => .completed c.1 c.2) m' ∧
      ∀ b m'', m.drainLoop now drained = .ok b m'' → m'' = m' := by
  fun_induction Assembly.drainLoop now drained m with
  | case1 drained m hnone =>
    rw [Assembly.completionsIn_of_none hnone]
    refine ⟨m, .nil, fun b m'' h => ?_⟩
    cases h
    rfl
  | case2 drained m response port hdrain e m' herror =>
    rw [Assembly.completionsIn_of_error hdrain herror]
    refine ⟨m, .nil, fun b m'' h => ?_⟩
    cases h
  | case3 drained m response port hdrain m' hok ih =>
    obtain ⟨m'', hpath, hlast⟩ := ih
    rw [Assembly.completionsIn_of_answer hdrain hok, List.map_append]
    exact ⟨m'', (Pieces.single (.answers hdrain hok)).trans hpath, hlast⟩

theorem path_drain (now : Nat) (m : Plant) :
    ∃ m', Pieces set lockstep m ((m.completionsIn now).map fun c => .completed c.1 c.2) m' ∧
      ∀ m'', m.drain now = .ok () m'' → m'' = m' := by
  obtain ⟨m₁, hpath, hlast⟩ := path_drainLoop set lockstep now false m
  unfold Assembly.drain
  split
  · exact ⟨m₁, hpath, fun m'' h => by cases h⟩
  · rename_i m₂ hdrained
    refine ⟨m₁, hpath, fun m'' h => ?_⟩
    cases h
    exact hlast _ _ hdrained
  · rename_i m₂ hdrained
    refine ⟨_, hpath.rests (.settleResponses m₁), fun m'' h => ?_⟩
    cases h
    rw [hlast _ _ hdrained]

/-- Turns are taken one after the other. -/
theorem path_issueLoop {now issued : Nat} {m m' : Plant} (h : m.issueLoop now issued = .ok () m') :
    Pieces set lockstep m [] m' := by
  fun_induction Assembly.issueLoop now issued m with
  | case1 issued m hstop =>
    cases h
    exact .nil
  | case2 issued m hstop e m₁ herror => cases h
  | case3 issued m hstop turn m₁ hok hon ih =>
    exact (Pieces.single (.turns (Allocator.not_busy hstop) hok)).trans (ih h)
  | case4 issued m hstop turn m₁ hok hon =>
    cases h
    exact .single (.turns (Allocator.not_busy hstop) hok)

/-- **The path of the allocator's part of a cycle.** -/
theorem path_tick (now : Nat) (m : Plant) :
    ∃ m', Pieces set lockstep m ((m.completionsIn now).map fun c => .completed c.1 c.2) m' ∧
      ∀ m'', m.tick now = .ok () m'' → m'' = m' := by
  obtain ⟨m₁, hpath, hlast⟩ := path_drain set lockstep now m
  cases htick : m.tick now with
  | error e m' => exact ⟨m₁, hpath, fun m'' h => by cases h⟩
  | ok _ m' =>
    refine ⟨m', ?_, fun m'' h => by cases h; rfl⟩
    unfold Assembly.tick at htick
    split at htick
    · cases htick
    · split at htick
      · cases htick
      · rename_i m₂ hdrained
        cases hlast _ hdrained
        split at htick
        · cases htick
        · rename_i m₃ hissued
          have hissue := path_issueLoop set lockstep hissued
          have hmore := (hpath.rests (.sweepLocks m₁ now)).trans hissue
          rw [List.append_nil] at hmore
          exact hmore.rests (.checkProgress htick)

end Plant

namespace Simulation

variable {s s' : Simulation} {now : Nat}

/-- Only the assembly, the cycle and the texts change. -/
def Follows (s s' : Simulation) : Prop :=
  ∃ m cycle output, s' = { s with assembly := m, cycle, output }

theorem Follows.trans {s'' : Simulation} (h : s.Follows s') (h' : s'.Follows s'') :
    s.Follows s'' := by
  obtain ⟨m, cycle, output, rfl⟩ := h
  obtain ⟨m', cycle', output', rfl⟩ := h'
  exact ⟨m', cycle', output', rfl⟩

theorem Follows.same (h : s.Follows s') : s'.set = s.set ∧ s'.lockstep = s.lockstep := by
  obtain ⟨_, _, _, rfl⟩ := h
  exact ⟨rfl, rfl⟩

/-- A generator has its turn. -/
theorem path_generatorTurn {port : Nat} (h : s.generatorTurn now port = .ok () s') :
    s.Follows s' ∧ Plant.Pieces s.set s.lockstep s.assembly
      ((s.generators[port]?.map fun g => g.happenings now s.set s.assembly.allocator).getD [])
      s'.assembly := by
  unfold generatorTurn at h
  split at h
  · rename_i hnone
    cases h
    rw [hnone]
    -- no generator for the port: the turn does nothing
    exact ⟨⟨_, _, _, rfl⟩, .nil⟩
  · rename_i g hg
    rw [hg]
    split at h
    · cases h
    · rename_i l htick
      have hpath : Plant.Pieces s.set s.lockstep s.assembly _ _ :=
        .single (.moves (s.assembly.journal.addAll l.notices) hg htick)
      simp only at h
      split at h
      · cases h
        exact ⟨⟨_, _, _, rfl⟩, hpath⟩
      · cases h
        unfold print
        split
        · exact ⟨⟨_, _, _, rfl⟩, hpath⟩
        · exact ⟨⟨_, _, _, rfl⟩, hpath⟩

/-- The generators have their turns. -/
theorem path_trafficTurn (now : Nat) (ports : List Nat) (s : Simulation) :
    ∃ m', Plant.Pieces s.set s.lockstep s.assembly (trafficHappenings now s ports) m' ∧
      ∀ s', trafficTurn now s ports = .ok () s' → s.Follows s' ∧ s'.assembly = m' := by
  -- on the ports still to take their turn, with the state free
  induction ports generalizing s with
  | nil =>
    refine ⟨s.assembly, .nil, fun s' h => ?_⟩
    cases h
    exact ⟨⟨_, _, _, rfl⟩, rfl⟩
  | cons port rest ih =>
    unfold trafficTurn trafficHappenings
    cases hturn : s.generatorTurn now port with
    | error e s' =>
      -- a turn that fails adds nothing, and no later port has its turn
      refine ⟨s.assembly, ?_, fun s' h => by cases h⟩
      cases s.generators[port]? <;> exact .nil
    | ok _ s₁ =>
      obtain ⟨hfollows, hone⟩ := path_generatorTurn hturn
      obtain ⟨m', hrest, hlast⟩ := ih s₁
      rw [hfollows.same.1, hfollows.same.2] at hrest
      refine ⟨m', ?_, fun s' h => ?_⟩
      · have hboth := hone.trans hrest
        cases hg : s.generators[port]? with
        | none =>
          rw [hg] at hboth
          exact hboth
        | some g =>
          rw [hg] at hboth
          exact hboth
      · obtain ⟨hfollows', hm'⟩ := hlast s' h
        exact ⟨hfollows.trans hfollows', hm'⟩

/-- Barriers are passed by one generator after the other. -/
theorem foldl_passBarrier (s : Simulation) (n : Nat) :
    ∃ lanes output, (List.range n).foldl passBarrier s = { s.setGenerators lanes with output } ∧
      ∀ i, lanes[i]? = s.generators[i]?.map fun g => if i < n then g.passed s.set else g := by
  induction n with
  | zero => exact ⟨s.generators, s.output, rfl, fun i => by simp⟩
  | succ n ih =>
    obtain ⟨lanes, output, hs, hlanes⟩ := ih
    have hself : lanes[n]? = s.generators[n]? := by
      rw [hlanes]
      simp
    -- the others stay as they are
    have hnext : ∀ lanes' : List Generator, (∀ i, n ≠ i → lanes'[i]? = lanes[i]?) →
        lanes'[n]? = s.generators[n]?.map (·.passed s.set) →
        ∀ i, lanes'[i]? =
          s.generators[i]?.map fun g => if i < n + 1 then g.passed s.set else g := by
      intro lanes' hother hn i
      by_cases hi : n = i
      · subst hi
        simp only [Nat.lt_succ_self, if_true]
        exact hn
      · have hiff : i < n + 1 ↔ i < n := by omega
        simp only [hother i hi, hlanes, hiff]
    rw [List.range_succ, List.foldl_append, hs, List.foldl_cons, List.foldl_nil]
    unfold passBarrier
    rw [show ({ s.setGenerators lanes with output } : Simulation).generators = lanes
      from rfl, hself]
    cases hg : s.generators[n]? with
    | none =>
      refine ⟨lanes, output, rfl, hnext _ (fun _ _ => rfl) ?_⟩
      rw [hself, hg]
      rfl
    | some g =>
      have hlt : n < lanes.length := (List.getElem?_eq_some_iff.mp (hself.trans hg)).1
      simp only
      split
      · rename_i hbarrier
        have hlanes' := hnext (lanes.set n (g.advance s.set).2)
          (fun i hi => List.getElem?_set_ne hi) (by
            rw [List.getElem?_set_self hlt, hg, Option.map_some]
            unfold Generator.passed
            rw [if_pos hbarrier])
        split
        · unfold print
          split
          · exact ⟨_, _, rfl, hlanes'⟩
          · exact ⟨_, _, rfl, hlanes'⟩
        · exact ⟨_, _, rfl, hlanes'⟩
      · rename_i hbarrier
        refine ⟨lanes, output, rfl, hnext _ (fun _ _ => rfl) ?_⟩
        rw [hself, hg, Option.map_some]
        unfold Generator.passed
        rw [if_neg hbarrier]

/-- Generators pass a barrier together, in lockstep only all of them. -/
theorem passBarriers_cases (s : Simulation) :
    s.passBarriers = s ∨
      (s.lockstep = true → ∀ g ∈ s.generators, g.atBarrier = true) ∧
        ∃ output, s.passBarriers =
          { s.setGenerators (s.generators.map (·.passed s.set)) with output } := by
  unfold passBarriers
  split
  · exact Or.inl rfl
  · rename_i hgo
    refine Or.inr ⟨fun hlockstep => ?_, ?_⟩
    · rw [hlockstep, Bool.true_and, Bool.not_eq_true', Bool.not_eq_false] at hgo
      exact List.all_eq_true.mp hgo
    · obtain ⟨lanes, output, hs, hlanes⟩ := s.foldl_passBarrier s.generators.length
      -- generator by generator, the fold is the map
      have hmap : lanes = s.generators.map (·.passed s.set) := by
        refine List.ext_getElem? fun i => ?_
        rw [hlanes, List.getElem?_map]
        by_cases hi : i < s.generators.length
        · simp only [hi, if_true]
        · rw [List.getElem?_eq_none (Nat.le_of_not_lt hi)]
          rfl
      exact ⟨output, hmap ▸ hs⟩

theorem path_passBarriers (s : Simulation) :
    s.Follows s.passBarriers ∧
      Plant.Pieces s.set s.lockstep s.assembly [] s.passBarriers.assembly := by
  rcases s.passBarriers_cases with hs | ⟨hall, output, hs⟩
  · rw [hs]
    exact ⟨⟨_, _, _, rfl⟩, .nil⟩
  · rw [hs]
    exact ⟨⟨_, _, _, rfl⟩, .single (.passes hall)⟩

/-- Nothing is found wrong at a barrier. -/
theorem faultless_passBarriers (h : ∀ g ∈ s.generators, g.fault = none) :
    ∀ g ∈ s.passBarriers.generators, g.fault = none := by
  rcases s.passBarriers_cases with hs | ⟨-, output, hs⟩
  · rw [hs]
    exact h
  · rw [hs]
    intro g hg
    obtain ⟨g₀, hg₀, rfl⟩ := List.mem_map.mp hg
    obtain ⟨_, _, _, _, hpassed⟩ := g₀.passed_frame s.set
    rw [hpassed]
    exact h g₀ hg₀

/-- What a generator found wrong would be reported. -/
theorem of_checkTraffic (h : s.checkTraffic now = .ok () s') :
    s' = s ∧ ∀ g ∈ s.generators, g.fault = none := by
  unfold checkTraffic at h
  split at h
  · rename_i hnone
    cases h
    refine ⟨rfl, fun g hg => ?_⟩
    have hfault := List.findIdx?_eq_none_iff.mp hnone g hg
    exact Option.not_isSome_iff_eq_none.mp (Bool.eq_false_iff.mp hfault)
  · rename_i port hport
    obtain ⟨hlt, hfault, -⟩ := List.findIdx?_eq_some_iff_getElem.mp hport
    obtain ⟨f, hf⟩ := Option.isSome_iff_exists.mp hfault
    rw [List.getElem?_eq_getElem hlt] at h
    simp only [Option.map_some, Generator.takeFault, hf] at h
    cases h

/-- The memory offers its answers. -/
theorem rests_memoryTurn (h : s.memoryTurn now = .ok () s') :
    s.Follows s' ∧ Plant.Rests s.assembly s'.assembly := by
  unfold memoryTurn at h
  simp only at h
  split at h
  · cases h
  · cases h
    exact ⟨⟨_, _, _, rfl⟩, Plant.Rests.memoryTurn s.assembly now _⟩

/-- The allocator has its turn. -/
theorem path_allocatorTurn (s : Simulation) (now : Nat) :
    ∃ m', Plant.Pieces s.set s.lockstep s.assembly
        ((s.assembly.completionsIn now).map fun c => .completed c.1 c.2) m' ∧
      ∀ s', s.allocatorTurn now = .ok () s' → s.Follows s' ∧ s'.assembly = m' := by
  obtain ⟨m', hpath, hlast⟩ := Plant.path_tick s.set s.lockstep now s.assembly
  refine ⟨m', hpath, fun s' h => ?_⟩
  unfold allocatorTurn at h
  split at h
  · cases h
  · rename_i m hticked
    cases h
    exact ⟨⟨_, _, _, rfl⟩, hlast m hticked⟩

/-- **The path of a cycle**, after which no generator has found anything wrong. -/
theorem path_step (s : Simulation) (now : Nat) :
    ∃ m', Plant.Pieces s.set s.lockstep s.assembly (s.happeningsIn now) m' ∧
      ∀ s', s.step now = .ok () s' → s.Follows s' ∧ s'.assembly = m' ∧
        ∀ g ∈ s'.generators, g.fault = none := by
  unfold step happeningsIn
  cases hmemory : s.memoryTurn now with
  | error e s₁ => exact ⟨s.assembly, .nil, fun s' h => by cases h⟩
  | ok _ s₁ =>
    obtain ⟨hfollows₁, hrests⟩ := rests_memoryTurn hmemory
    -- the turn of the memory is no happening of a generator
    have hoffered : Plant.Pieces s.set s.lockstep s.assembly [] s₁.assembly :=
      Plant.Pieces.nil.rests hrests
    obtain ⟨m₂, htraffic, hlast₂⟩ :=
      path_trafficTurn now (List.range s₁.generators.length) s₁
    have hsame₁ : s₁.set = s.set ∧ s₁.lockstep = s.lockstep := hfollows₁.same
    rw [hsame₁.1, hsame₁.2] at htraffic
    -- then the generators submit, in the order of their ports
    have hsubmitted := hoffered.trans htraffic
    rw [List.nil_append] at hsubmitted
    simp only
    cases hturned : trafficTurn now s₁ (List.range s₁.generators.length) with
    | error e s₂ =>
      simp only [List.append_nil]
      exact ⟨m₂, hsubmitted, fun s' h => by cases h⟩
    | ok _ s₂ =>
      obtain ⟨hfollows₂, rfl⟩ := hlast₂ s₂ hturned
      obtain ⟨m₃, hallocator, hlast₃⟩ := s₂.path_allocatorTurn now
      have hsame₂ := (hfollows₁.trans hfollows₂).same
      rw [hsame₂.1, hsame₂.2] at hallocator
      -- the allocator drains and issues
      have hticked := hsubmitted.trans hallocator
      simp only
      cases hturn : s₂.allocatorTurn now with
      | error e s₃ => exact ⟨m₃, hticked, fun s' h => by cases h⟩
      | ok _ s₃ =>
        obtain ⟨hfollows₃, rfl⟩ := hlast₃ s₃ hturn
        simp only
        cases hchecked : s₃.checkTraffic now with
        | error e s₄ => exact ⟨_, hticked, fun s' h => by cases h⟩
        | ok _ s₄ =>
          obtain ⟨rfl, hfault⟩ := of_checkTraffic hchecked
          obtain ⟨hfollows₄, hpassed⟩ := s₄.path_passBarriers
          have hsame₃ := ((hfollows₁.trans hfollows₂).trans hfollows₃).same
          rw [hsame₃.1, hsame₃.2] at hpassed
          -- and the generators pass the barrier, if they may
          have hpath := hticked.trans hpassed
          rw [List.append_nil] at hpath
          refine ⟨_, hpath, fun s' h => ?_⟩
          cases h
          refine ⟨((hfollows₁.trans hfollows₂).trans hfollows₃).trans hfollows₄, rfl,
            ?_⟩
          exact faultless_passBarriers hfault

/-! ### The path of a simulation -/

theorem path_fillLines {lineSize : Nat} {addrs : List Nat}
    (h : fillLines lineSize s addrs = .ok () s') :
    s.Follows s' ∧ Plant.Pieces s.set s.lockstep s.assembly [] s'.assembly := by
  induction addrs generalizing s with
  | nil =>
    cases h
    exact ⟨⟨_, _, _, rfl⟩, .nil⟩
  | cons addr rest ih =>
    unfold fillLines at h
    simp only at h
    split at h
    · cases h
    · rename_i response m hfilled
      obtain ⟨hfollows, hpath⟩ := ih h
      have hrests : Plant.Rests s.assembly m := .accessFunctional hfilled nofun
      refine ⟨Follows.trans ⟨m, s.cycle, s.output, rfl⟩ hfollows, ?_⟩
      exact (Plant.Pieces.nil.rests hrests).trans hpath

theorem path_preload (h : s.preload = .ok () s') :
    s.Follows s' ∧ Plant.Pieces s.set s.lockstep s.assembly [] s'.assembly := by
  unfold preload at h
  simp only at h
  split at h
  · cases h
  · rename_i s₁ hfilled
    split at h
    · cases h
    · cases h
      exact path_fillLines hfilled

/-- **The history happens along a path**, which leads to the simulation after
the cycles. -/
theorem path_history (s : Simulation) (n : Nat) :
    ∃ m', Plant.Pieces s.set s.lockstep s.assembly (s.history n) m' ∧
      ∀ s', s.afterCycles n = .ok () s' → s.Follows s' ∧ s'.assembly = m' := by
  -- on the cycles run: each one appends its own path
  induction n with
  | zero =>
    unfold afterCycles history
    cases hpreload : s.preload with
    | error e s' => exact ⟨s.assembly, .nil, fun s' h => by cases h⟩
    | ok _ s₁ =>
      obtain ⟨hfollows, hpath⟩ := path_preload hpreload
      refine ⟨s₁.assembly, hpath, fun s' h => ?_⟩
      cases h
      exact ⟨hfollows, rfl⟩
  | succ n ih =>
    obtain ⟨m₁, hbefore, hlast⟩ := ih
    unfold afterCycles history
    cases hafter : s.afterCycles n with
    | error e s₁ =>
      refine ⟨m₁, ?_, fun s' h => by cases h⟩
      rw [List.append_nil]
      exact hbefore
    | ok _ s₁ =>
      obtain ⟨hfollows, rfl⟩ := hlast s₁ hafter
      obtain ⟨m', hcycle, hlast'⟩ := path_step ({ s₁ with cycle := n } : Simulation) n
      have hsame := hfollows.same
      refine ⟨m', ?_, fun s' h => ?_⟩
      · refine hbefore.trans ?_
        rw [← hsame.1, ← hsame.2]
        exact hcycle
      · obtain ⟨hfollows', hm', -⟩ := hlast' s' h
        have hbegins : s₁.Follows { s₁ with cycle := n } := ⟨_, _, _, rfl⟩
        exact ⟨(hfollows.trans hbegins).trans hfollows', hm'⟩

/-- After a cycle no generator has found anything wrong. -/
theorem faultless_afterCycles {n : Nat} (h : s.afterCycles (n + 1) = .ok () s') :
    ∀ g ∈ s'.generators, g.fault = none := by
  obtain ⟨s₁, -, hstep⟩ := step_of_afterCycles h
  obtain ⟨m', -, hlast⟩ := path_step ({ s₁ with cycle := n } : Simulation) n
  exact (hlast s' hstep).2.2

end Simulation

end MemPort
