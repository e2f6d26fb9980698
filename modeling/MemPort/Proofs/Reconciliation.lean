import MemPort.Proofs.Lanes
import MemPort.Proofs.MemoryCounts
import MemPort.Proofs.SimulationVerdict

/-!
# The summary balances

The generators, the allocator and the memory count on their own.  Along the path
of a simulation the events of the allocator tie their counters together: what
the generators count as issued is what was accepted, what the memory counts as
taken is what was sent, and a store-conditional without effect is counted by the
memory first and by its generator in the end (`Reconciled`).  When the traffic
has come to its end nothing is queued, nothing is in flight and no answer is on
its way, so that all counters of one thing agree.

## Main definitions

* `Settings.increments`, `Settings.accesses` — what the patterns ask of every
  port.
* `Reconciled` — the counters of all parts tell the same events.
* `Summary.Balances` — the counters of a summary agree.

## Main results

* `Reconciled.path` — along a path without anything wrong the counters stay
  reconciled.
* `Simulation.summary_balances` — the summary of a simulation balances.

## References

`SPEC_FULL.md`, sections 10.5 and 10.7: the counters in the summary.
-/

namespace MemPort

/-! ### What the patterns ask for -/

/-- Whether a pattern of a configuration increments the counter. -/
def PatternSpec.isAtomic (spec : PatternSpec) : Bool :=
  foldWord spec.kind == "llsc" || foldWord spec.kind == "atomic"

theorem Pattern.isAtomic_ofSpec {config : TrafficConfig} {ports : Nat} {spec : PatternSpec}
    {p : Pattern} (h : Pattern.ofSpec config ports spec = .ok p) : p.isAtomic = spec.isAtomic := by
  obtain ⟨-, -, -, -, hshape⟩ := parts_of_ofSpec h
  unfold PatternSpec.isAtomic Pattern.isAtomic
  -- one case for each kind of pattern, the last one an unknown word
  generalize foldWord spec.kind = kind at hshape
  generalize p.shape = shape at hshape ⊢
  unfold shapeOf at hshape
  split at hshape
  · cases hshape
    rfl
  · cases hshape
    rfl
  · cases hshape
    rfl
  · cases hshape
    rfl
  · cases hshape
    rfl
  · cases hshape

theorem PatternSet.map_isAtomic {config : TrafficConfig} {ports index : Nat}
    {specs : List PatternSpec} {patterns : List Pattern}
    (h : compile config ports index specs = .ok patterns) :
    patterns.map (·.isAtomic) = specs.map (·.isAtomic) := by
  induction specs generalizing index patterns with
  | nil =>
    cases h
    rfl
  | cons spec rest ih =>
    unfold compile at h
    split at h
    · cases h
    · rename_i p hp
      obtain ⟨ps, hrest, rfl⟩ := exists_of_map_eq_ok h
      rw [List.map_cons, List.map_cons, Pattern.isAtomic_ofSpec hp, ih hrest]

/-- The increments of the counter that every port is asked for. -/
def Settings.increments (s : Settings) : Nat :=
  max s.traffic.reqsPerPattern 1 * s.traffic.patterns.countP (·.isAtomic)

/-- The other accesses that every port is asked for. -/
def Settings.accesses (s : Settings) : Nat :=
  max s.traffic.reqsPerPattern 1 * s.traffic.patterns.countP (!·.isAtomic)

theorem Simulation.Begins.asks {sim : Simulation} {s : Settings} (h : sim.Begins s) :
    sim.set.reqsPerPattern * sim.set.patterns.countP (·.isAtomic) = s.increments ∧
      sim.set.reqsPerPattern * sim.set.patterns.countP (!·.isAtomic) = s.accesses := by
  obtain ⟨patterns, hcompiled, hset⟩ := exists_of_map_eq_ok h.patterns
  have hcount : ∀ f : Bool → Bool, patterns.countP (f ·.isAtomic) =
      s.traffic.patterns.countP (f ·.isAtomic) := by
    intro f
    have hmap := congrArg (List.countP f) (PatternSet.map_isAtomic hcompiled)
    rw [List.countP_map, List.countP_map] at hmap
    exact hmap
  rw [← hset]
  exact ⟨congrArg (_ * ·) (hcount id), congrArg (_ * ·) (hcount not)⟩

/-! ### Counters along a path -/

/-- Nothing was found wrong. -/
def Plant.Clean (m : Plant) : Prop := m.memory.fault = none ∧ Faultless m.lanes

/-- What is found wrong in a piece of a cycle is not forgotten. -/
theorem Plant.Piece.clean {set : PatternSet} {lockstep : Bool} {m m' : Plant} {hs : List Happening}
    (h : Piece set lockstep m hs m') (hclean : m'.Clean) : m.Clean := by
  obtain ⟨hmemory, hlanes⟩ := hclean
  cases h with
  | moves j hg htick =>
    have hfault := (Generator.moves_of_tick htick).keeps.2.1
    exact ⟨hmemory, (Faultless.of_set hg hfault.symm.trans hlanes).1⟩
  | answers hdrain hanswer =>
    obtain ⟨_, -, -, htakes, hsame⟩ := takes_of_answer hanswer
    exact ⟨hsame ▸ hmemory, htakes.faultless hlanes⟩
  | turns hbusy hturn =>
    have hturned := Assembly.turned_of_issueTurn hbusy hturn
    exact ⟨fault_of_turned hturned hmemory, (hears_turned hturned).faultless hlanes⟩
  | passes hall =>
    refine ⟨hmemory, fun g hg => ?_⟩
    -- passing a barrier clears no fault
    have hpassed : (g.passed set).fault = none := hlanes _ (List.mem_map_of_mem hg)
    obtain ⟨_, _, _, _, hframe⟩ := g.passed_frame set
    rw [hframe] at hpassed
    exact hpassed
  | rests hrests => exact ⟨hrests.fault hmemory, hrests.lanes.faultless hlanes⟩

/-- The counters of the generators, of the allocator and of the memory tell the
same events. -/
structure Reconciled (config : AllocatorConfig) (set : PatternSet) (es : List Event) (m : Plant) :
    Prop where
  /-- The events account for what is queued and in flight. -/
  kept : Kept (.empty config) es m.allocator.books
  /-- The allocator has counted them. -/
  tallied : Tallied es m.allocator
  /-- The generators have made what was accepted. -/
  steady : Steady set (acceptedIn es) m.lanes
  /-- There is a generator for every port. -/
  ports : m.lanes.map (·.port) = List.range config.numPorts
  /-- The generators have counted what was accepted. -/
  issued : (acceptedIn es).length = total (m.lanes.map (·.stats.issued))
  /-- They have counted what was refused. -/
  rejects : (refusedIn es).length = total (m.lanes.map (·.stats.rejects))
  /-- The memory has counted what was sent. -/
  serves : Serves (sentIn es).length (total (m.lanes.map (·.stats.scFailures))) m

namespace Reconciled

variable {config : AllocatorConfig} {set : PatternSet} {lockstep : Bool} {es : List Event}
  {hs : List Happening} {m m' : Plant} {now : Nat}

/-- Leaves and snoops change none of the counters that are compared. -/
theorem hears_counters {lanes lanes' : List Generator} (h : Hears lanes lanes') :
    lanes'.map (·.port) = lanes.map (·.port) ∧
      lanes'.map (·.stats.issued) = lanes.map (·.stats.issued) ∧
      lanes'.map (·.stats.rejects) = lanes.map (·.stats.rejects) ∧
      lanes'.map (·.stats.scFailures) = lanes.map (·.stats.scFailures) :=
  ⟨h.map_eq fun _ _ htold => by cases htold <;> rfl,
    h.map_eq fun _ _ htold => by cases htold <;> rfl,
    h.map_eq fun _ _ htold => by cases htold <;> rfl,
    h.map_eq fun _ _ htold => by cases htold <;> rfl⟩

/-- Where nothing happens, nothing is counted. -/
theorem rests (h : Reconciled config set es m) (hrests : m.Rests m') :
    Reconciled config set es m' := by
  obtain ⟨hports, hissued, hrejects, hfailures⟩ := hears_counters hrests.lanes
  exact {
    kept := hrests.books ▸ h.kept
    tallied := h.tallied.congr hrests.books hrests.traffic
    steady := h.steady.hears hrests.lanes
    ports := hports.trans h.ports
    issued := hissued ▸ h.issued
    rejects := hrejects ▸ h.rejects
    serves := hfailures ▸ h.serves.rests hrests }

/-- **A turn is taken.** -/
theorem turned {turn : Turn} (h : Reconciled config set es m) (hturned : m.Turned now (.ok turn) m')
    (hclean : m'.memory.fault = none) :
    Reconciled config set (es ++ [.turned now (.ok turn)]) m' := by
  have hbooked := Assembly.booked_turned hturned nofun
  have hhears := Plant.hears_turned hturned
  obtain ⟨hports, hissued, hrejects, hfailures⟩ := hears_counters hhears
  -- what the memory counts depends on how the turn ends
  have hserves := h.serves.turned hturned hclean
  refine ⟨h.kept.step hbooked, h.tallied.step hbooked (Assembly.counted_turned hturned), ?_,
    hports.trans h.ports, ?_, ?_, ?_⟩
  · rw [acceptedIn_append, acceptedIn_singleton]
    simp only [Event.accepted, List.append_nil]
    exact h.steady.hears hhears
  · rw [acceptedIn_append, acceptedIn_singleton, hissued]
    simp only [Event.accepted, List.append_nil]
    exact h.issued
  · rw [refusedIn_append, refusedIn_singleton, hrejects]
    simp only [Event.refused, List.append_nil]
    exact h.rejects
  · rw [sentIn_append, sentIn_singleton, List.length_append, hfailures]
    exact hserves

/-- **An answer is handed out** to generators that find nothing wrong. -/
theorem answered {response : BackendResponse} {port : BackendPort} (h : Reconciled config set es m)
    (hdrain : m.allocator.backendPort.drain? now = some (response, port))
    (hanswer : (m.update fun a => { a with backendPort := port }).answer now response = .ok () m')
    (hclean : Faultless m'.lanes) :
    Reconciled config set (es ++ [.answered now response (.ok ())]) m' := by
  obtain ⟨request, hget, hfan, htakes, -⟩ := Plant.takes_of_answer hanswer
  obtain ⟨_, -, ha⟩ := Assembly.allocator_answer hanswer
  have hbooked : Booked m.allocator.books (.answered now response (.ok ())) m'.allocator.books := by
    rw [ha]
    exact .answered
  -- the answer is on its way, so that it tells of a failure only for a store-conditional
  have hfails : response.success = false → request.cmd = .storeCond := by
    have hmem : response ∈ m.answers := by
      unfold Plant.answers
      rw [Allocator.answers_drain? hdrain]
      exact List.mem_cons_self
    obtain ⟨r, hr, hfails⟩ := h.serves.asked.asked response hmem
    cases hget.symm.trans hr
    exact hfails
  obtain ⟨hcount, hfailed⟩ :=
    Coalesced.failures_fanOut hfan (h.serves.asked.alone _ _ hget) hfails
  have hfailures := htakes.failures hclean fun c hc hfailure => by
    obtain ⟨hport, htag, hcmd⟩ := hfailed c hc hfailure
    have haccepted : request.first ∈ acceptedIn es := by
      refine h.kept.mem_acceptedIn (List.mem_map.mpr ⟨(response.id, request.first), ?_, rfl⟩)
      refine mem_servedUnder.mp ?_
      rw [(h.kept.accounted hget).origins]
      exact List.mem_cons_self
    obtain ⟨g, hg, hrecalls⟩ := h.steady.known _ haccepted
    rw [hport, htag]
    exact ⟨g, hg, hrecalls.expects hcmd⟩
  rw [hcount] at hfailures
  refine ⟨h.kept.step hbooked, h.tallied.step hbooked (Assembly.counted_answer hanswer), ?_,
    ?_, ?_, ?_, ?_⟩
  · rw [acceptedIn_append, acceptedIn_singleton]
    simp only [Event.accepted, List.append_nil]
    exact h.steady.takes htakes hclean
  · rw [htakes.map_eq fun _ _ _ hreceives => by
      obtain ⟨_, _, _, _, rfl⟩ := hreceives.frame; rfl]
    exact h.ports
  · rw [acceptedIn_append, acceptedIn_singleton,
      htakes.map_eq fun _ _ _ hreceives => by cases hreceives <;> rfl]
    simp only [Event.accepted, List.append_nil]
    exact h.issued
  · rw [refusedIn_append, refusedIn_singleton,
      htakes.map_eq fun _ _ _ hreceives => by cases hreceives <;> rfl]
    simp only [Event.refused, List.append_nil]
    exact h.rejects
  · rw [sentIn_append, sentIn_singleton, hfailures]
    simp only [Event.sent, List.append_nil]
    exact h.serves.answered hdrain hanswer

/-- **A generator has its part of a cycle.** -/
theorem moves {port : Nat} {g : Generator} {l : Logged (Option Nat × Generator × Allocator)}
    (j : Journal) (h : Reconciled config set es m) (hg : m.lanes[port]? = some g)
    (htick : g.tick now set m.allocator = .ok l) :
    ∃ es', Reconciled config set es'
      ⟨l.value.2.2, (⟨m.lanes.set port l.value.2.1⟩, m.memory), j⟩ := by
  have hmoves := Generator.moves_of_tick htick
  generalize l.value.2.1 = g' at hmoves ⊢
  generalize l.value.2.2 = a' at hmoves ⊢
  have hlt := (List.getElem?_eq_some_iff.mp hg).1
  have hsteady := h.steady.moves hg hmoves
  have hports : (m.lanes.set port g').map (·.port) = List.range config.numPorts := by
    rw [map_set_of_eq hg hmoves.keeps.1]
    exact h.ports
  rcases hmoves.cases_counted with ⟨rfl, hstats⟩ | ⟨t, l', hsubmit, rfl, hstats, hrecalls⟩
  · -- nothing is submitted
    have hsame : ∀ f : GeneratorCounters → Nat,
        (m.lanes.set port g').map (f ·.stats) = m.lanes.map (f ·.stats) :=
      fun f => map_set_of_eq hg (congrArg f hstats)
    refine ⟨es, h.kept, h.tallied, hsteady, hports, ?_, ?_, ?_⟩
    · exact h.issued.trans (congrArg total (hsame (·.issued)).symm)
    · exact h.rejects.trans (congrArg total (hsame (·.rejects)).symm)
    · have hfailures : total ((m.lanes.set port g').map (·.stats.scFailures)) = _ :=
        congrArg total (hsame (·.scFailures))
      show Serves _ (total ((m.lanes.set port g').map (·.stats.scFailures))) _
      rw [hfailures]
      exact h.serves.congr rfl rfl rfl
  · -- an access is submitted, and taken or refused
    have horderly := h.steady.lane port g hg
    have hsubmit : m.allocator.submit now port t = .ok l' := by
      rw [← horderly.port_eq]
      exact hsubmit
    have hmade := hrecalls fun t' ht' => (horderly.pending t' ht').congr rfl rfl
    have hcounted := Allocator.counted_submit hsubmit
    obtain ⟨hallocator, hqueued⟩ := Allocator.queuedOn_submit hsubmit
    generalize l'.value.1 = taken at hstats hcounted hqueued
    have hbooked : Booked m.allocator.books (.submitted now port t (.ok taken)) l'.value.2.books :=
      booked_of_submitted hallocator hqueued
    generalize he : Event.submitted now port t (.ok taken) = e at hcounted hbooked
    have hcounts : g'.stats.issued = g.stats.issued + e.accepted.length ∧
        g'.stats.rejects = g.stats.rejects + e.refused.length ∧
        g'.stats.scFailures = g.stats.scFailures ∧ e.sent = [] := by
      rw [← he, hstats]
      unfold Generator.counted
      cases taken <;> exact ⟨rfl, rfl, rfl, rfl⟩
    obtain ⟨hissued, hrejects, hfailures, hsent⟩ := hcounts
    refine ⟨es ++ [e], h.kept.step hbooked, h.tallied.step hbooked hcounted, ?_,
      hports, ?_, ?_, ?_⟩
    · rw [acceptedIn_append, acceptedIn_singleton, ← he]
      cases taken with
      | true => exact hsteady.accepts (List.getElem?_set_self hlt) hmade
      | false => exact (List.append_nil (acceptedIn es)).symm ▸ hsteady
    · rw [acceptedIn_append, acceptedIn_singleton, List.length_append, h.issued]
      exact (total_map_lanes hg (·.stats.issued) hissued).symm
    · rw [refusedIn_append, refusedIn_singleton, List.length_append, h.rejects]
      exact (total_map_lanes hg (·.stats.rejects) hrejects).symm
    · rw [sentIn_append, sentIn_singleton, hsent, List.append_nil]
      show Serves _ (total ((m.lanes.set port g').map (·.stats.scFailures))) _
      rw [map_set_of_eq hg hfailures]
      obtain ⟨ports, stats, ha⟩ := hallocator
      refine h.serves.congr rfl ?_ ?_
      · rw [ha]
      · rw [ha]
        rfl

/-- Generators pass a barrier. -/
theorem passes (h : Reconciled config set es m) :
    Reconciled config set es
      { m with surroundings := (⟨m.lanes.map (·.passed set)⟩, m.memory) } := by
  have hsame : ∀ g : Generator, (g.passed set).port = g.port ∧
      (g.passed set).stats.issued = g.stats.issued ∧
      (g.passed set).stats.rejects = g.stats.rejects ∧
      (g.passed set).stats.scFailures = g.stats.scFailures := by
    intro g
    obtain ⟨_, _, _, _, hframe⟩ := g.passed_frame set
    rw [hframe]
    exact ⟨rfl, rfl, rfl, rfl⟩
  -- a counter that no generator changes has the sum it had
  have hmap : ∀ f : Generator → Nat, (∀ g, f (g.passed set) = f g) →
      (m.lanes.map (·.passed set)).map f = m.lanes.map f := by
    intro f hf
    rw [List.map_map]
    exact List.map_congr_left fun g _ => hf g
  refine ⟨h.kept, h.tallied, h.steady.passes, ?_, ?_, ?_, ?_⟩
  · exact (hmap (·.port) fun g => (hsame g).1).trans h.ports
  · exact h.issued.trans (congrArg total (hmap (·.stats.issued) fun g => (hsame g).2.1).symm)
  · exact h.rejects.trans (congrArg total (hmap (·.stats.rejects) fun g => (hsame g).2.2.1).symm)
  · show Serves _ (total ((m.lanes.map (·.passed set)).map (·.stats.scFailures))) _
    rw [hmap (·.stats.scFailures) fun g => (hsame g).2.2.2]
    exact h.serves.congr rfl rfl rfl

/-- **Every piece of a cycle in which nothing is found wrong keeps the counters
reconciled.** -/
theorem piece (h : Reconciled config set es m) (hpiece : Plant.Piece set lockstep m hs m')
    (hclean : m'.Clean) : ∃ es', Reconciled config set es' m' := by
  cases hpiece with
  | moves j hg htick => exact h.moves j hg htick
  | answers hdrain hanswer => exact ⟨_, h.answered hdrain hanswer hclean.2⟩
  | turns hbusy hturn => exact ⟨_, h.turned (Assembly.turned_of_issueTurn hbusy hturn) hclean.1⟩
  | passes hall => exact ⟨es, h.passes⟩
  | rests hrests => exact ⟨es, h.rests hrests⟩

/-- **Along a path in which nothing is found wrong the counters stay
reconciled.** -/
theorem path (h : Reconciled config set [] m) (hpath : Plant.Pieces set lockstep m hs m')
    (hclean : m'.Clean) : ∃ es, Reconciled config set es m' :=
  hpath.induct (P := fun _ m' => m'.Clean → ∃ es, Reconciled config set es m')
    (fun _ => ⟨[], h⟩)
    (fun _ _ _ _ hbefore hpiece hclean => by
      obtain ⟨_, hreconciled⟩ := hbefore (hpiece.clean hclean)
      exact hreconciled.piece hpiece hclean) hclean

/-- Before its first cycle a simulation has counted nothing. -/
theorem of_begins {sim : Simulation} {s : Settings} (h : sim.Begins s) :
    Reconciled s.allocator sim.set [] sim.assembly := by
  have hlanes : Plant.lanes sim.assembly = _ := h.generators
  -- every counter starts at zero on every generator
  have hzero : ∀ f : Generator → Nat,
      (∀ port, f (.new port s.allocator.numPorts s.traffic sim.set) = 0) →
      total ((Plant.lanes sim.assembly).map f) = 0 := by
    intro f hf
    rw [hlanes, List.map_map]
    generalize List.range s.allocator.numPorts = ports
    induction ports with
    | nil => rfl
    | cons port rest ih =>
      rw [List.map_cons, total, ih, Nat.add_zero]
      exact hf port
  refine ⟨?_, .of_new h.allocator, ?_, ?_, ?_, ?_, ?_⟩
  · rw [Allocator.books_new h.allocator]
    exact .start
  · rw [hlanes]
    exact .of_new
  · rw [hlanes, List.map_map]
    exact List.map_id _
  · exact (hzero _ fun _ => rfl).symm
  · exact (hzero _ fun _ => rfl).symm
  · rw [hzero _ fun _ => rfl]
    exact .of_new h.allocator h.memory

/-- **At the end of the traffic all counters of one thing agree**, as far as a
word can tell, and they still do after an access that is not seen by those that
are queued. -/
theorem settled (h : Reconciled config set es m) (hidle : m.allocator.isIdle = true)
    (hrests : m.Rests m') :
    ∃ sent ≤ total (m'.lanes.map (·.stats.issued)),
      m'.allocator.stats.Tells {
        accepted := total (m'.lanes.map (·.stats.issued))
        refused := total (m'.lanes.map (·.stats.rejects))
        retired := total (m'.lanes.map (·.stats.issued))
        delivered := total (m'.lanes.map (·.stats.issued))
        sent := sent
        drained := sent } ∧
      m'.memory.stats.accepted = sent ∧ m'.memory.stats.responses = sent ∧
      m'.memory.stats.scFailures = total (m'.lanes.map (·.stats.scFailures)) := by
  have h' := h.rests hrests
  obtain ⟨hqueued, hflight⟩ := Allocator.eq_nil_of_isIdle hidle
  have hout : m.allocator.outstanding.entries = [] := by
    unfold Allocator.isIdle at hidle
    simp only [Bool.and_eq_true] at hidle
    exact List.isEmpty_iff.mp hidle.1.1
  have hanswers : m'.answers = [] := hrests.answers.trans (h.serves.asked.eq_nil hout)
  have hheld : m'.memory.heldBack = [] := (List.append_eq_nil_iff.mp hanswers).2
  -- what was accepted left its port, and was completed
  have haccepted := h.kept.length_acceptedIn
  have hwaiting : m.allocator.waiting = 0 := by
    rw [← Allocator.length_queued, hqueued]
    rfl
  obtain ⟨delivered, hdelivered, htold⟩ := h.tallied.counters
  rw [hflight, List.length_nil] at hdelivered
  have hflying := h.tallied.flying
  have hsize : m.allocator.outstanding.size = 0 := congrArg List.length hout
  have hsent := length_sentIn_le es
  have hissued := h'.issued
  refine ⟨(sentIn es).length, by omega, ?_, h'.serves.accepted, ?_, ?_⟩
  · rw [← hissued, ← h'.rejects]
    have htally : tallyOf es delivered = ⟨(acceptedIn es).length, (refusedIn es).length,
        (acceptedIn es).length, (acceptedIn es).length, (sentIn es).length,
        (sentIn es).length⟩ := by
      unfold tallyOf
      congr 1 <;> omega
    exact .of_traffic (htally ▸ htold.traffic) hrests.traffic
  · have hresponses := h'.serves.responses
    rw [hheld, List.length_nil, Nat.add_zero] at hresponses
    exact hresponses.trans h'.serves.accepted
  · have hfailures := h'.serves.scFailures
    rw [hanswers, List.countP_nil, Nat.add_zero] at hfailures
    exact hfailures

/-- Every generator that has finished all patterns has made what they ask for. -/
theorem done (h : Reconciled config set es m) (hdone : ∀ g ∈ m.lanes, g.isDone = true)
    (hrests : m.Rests m') : ∀ g ∈ m'.lanes,
      g.stats.scSuccesses = set.reqsPerPattern * set.patterns.countP (·.isAtomic) ∧
      g.stats.issued = set.reqsPerPattern * set.patterns.countP (!·.isAtomic) +
        2 * (g.stats.scSuccesses + g.stats.scFailures) ∧
      g.stats.completed = g.stats.issued ∧ g.stats.retries = g.stats.rejects := by
  intro g hg
  obtain ⟨port, hport⟩ := List.getElem?_of_mem hg
  have hphase : m'.lanes.map (·.isDone) = m.lanes.map (·.isDone) :=
    hrests.lanes.map_eq fun _ _ htold => by
      obtain ⟨_, _, _, rfl⟩ := htold.frame
      rfl
  have hmem : g.isDone ∈ m.lanes.map (·.isDone) := hphase ▸ List.mem_map_of_mem hg
  obtain ⟨g₁, hg₁, heq⟩ := List.mem_map.mp hmem
  exact ((h.rests hrests).steady.lane port g hport).balanced.of_isDone (heq ▸ hdone g₁ hg₁)

end Reconciled

/-! ### The summary -/

/-- What all generators of a summary counted together. -/
def Summary.sum (summary : Summary) (f : GeneratorCounters → Nat) : Nat :=
  total (summary.generators.map fun g => f g.2)

/-- The counters of a summary agree. -/
structure Summary.Balances (s : Settings) (summary : Summary) : Prop where
  /-- Every port has a generator. -/
  ports : summary.generators.map (·.1) = List.range s.allocator.numPorts
  /-- It made the increments that it was asked for. -/
  scSuccesses : ∀ g ∈ summary.generators, g.2.scSuccesses = s.increments
  /-- It issued the other accesses, and two for every increment that it tried. -/
  issued : ∀ g ∈ summary.generators,
    g.2.issued = s.accesses + 2 * (g.2.scSuccesses + g.2.scFailures)
  /-- Whatever it issued was completed. -/
  completed : ∀ g ∈ summary.generators, g.2.completed = g.2.issued
  /-- Whatever was refused was submitted again. -/
  retries : ∀ g ∈ summary.generators, g.2.retries = g.2.rejects
  /-- The allocator accepted what was issued. -/
  accepted : summary.allocator.accepted = summary.sum (·.issued)
  /-- All of it left the ports. -/
  requestCount : summary.allocator.requestCount = summary.sum (·.issued)
  /-- All of it was completed. -/
  responsesDelivered : summary.allocator.responsesDelivered = summary.sum (·.issued)
  /-- The allocator refused what was rejected. -/
  requestorRejects : summary.allocator.requestorRejects = summary.sum (·.rejects)
  /-- The memory took what was sent. -/
  backendSends : summary.allocator.backendSends = summary.memory.accepted
  /-- Its answers were drained. -/
  responsesDrained : summary.allocator.responsesDrained = summary.memory.accepted
  /-- It answered what it took. -/
  responses : summary.memory.responses = summary.memory.accepted
  /-- The generators were told of every store-conditional without effect. -/
  scFailures : summary.memory.scFailures = summary.sum (·.scFailures)

namespace Simulation

variable {s : Settings} {level : Level} {sim : Simulation} {summary : Summary}

/-- A summary is made of what the parts have counted. -/
theorem of_summarize {s s' : Simulation} (h : s.summarize = .ok summary s') :
    ∃ m : Plant, Plant.Rests s.assembly m ∧ m.memory.fault = none ∧
      summary.allocator = m.allocator.stats ∧ summary.memory = m.memory.stats ∧
      summary.generators = m.lanes.map fun g => (g.port, g.stats) := by
  unfold summarize at h
  simp only at h
  split at h
  · cases h
  · rename_i response m hread
    split at h
    · cases h
    · rename_i hnone
      refine ⟨m, .accessFunctional hread nofun, congrArg Prod.fst hnone, ?_⟩
      -- the counter has been read; what follows compares and prints
      unfold judgeCounter at h
      split at h
      · cases h
      · simp only at h
        split at h
        · cases h
          unfold print
          split
          · split <;> exact ⟨rfl, rfl, rfl⟩
          · exact ⟨rfl, rfl, rfl⟩
        · cases h

/-- **A summary is made when the traffic has come to its end**, of parts that
are reconciled. -/
theorem closes_of_simulate {s' : Simulation} (hnew : Simulation.new s level = .ok sim)
    (hok : sim.simulate = .ok summary s') :
    ∃ es m m', Reconciled s.allocator sim.set es m ∧ (∀ g ∈ m.lanes, g.isDone = true) ∧
      m.allocator.isIdle = true ∧ m.Rests m' ∧ summary.allocator = m'.allocator.stats ∧
      summary.memory = m'.memory.stats ∧
      summary.generators = m'.lanes.map fun g => (g.port, g.stats) := by
  cases hpreload : sim.preload with
  | error e s₀ =>
    unfold simulate at hok
    rw [hpreload] at hok
    cases hok
  | ok _ s₀ =>
    have hends := ends_simulate hpreload
    rw [hok] at hends
    -- only a run that finished ends without an error
    cases hends with
    | @finished n s₁ _ _ hafter hfinished hresult =>
      obtain ⟨m, hrests, hfault, hsummary⟩ := of_summarize hresult
      obtain ⟨_, hpath, hlast⟩ := sim.path_history (n + 1)
      obtain ⟨-, rfl⟩ := hlast _ hafter
      have hclean : Plant.Clean s₁.assembly :=
        ⟨hrests.fault hfault, faultless_afterCycles hafter⟩
      obtain ⟨es, hreconciled⟩ := (Reconciled.of_begins (begins_of_new hnew)).path hpath hclean
      have hnoted : Reconciled s.allocator sim.set es (s₁.assembly.note (.finished n)) :=
        hreconciled.rests (.of_surroundings rfl rfl rfl rfl)
      unfold isFinished at hfinished
      simp only [Bool.and_eq_true] at hfinished
      obtain ⟨⟨hdone, hidle⟩, -⟩ := hfinished
      exact ⟨es, _, m, hnoted, List.all_eq_true.mp hdone, hidle, hrests, hsummary⟩

/-- **The summary balances.**  Every port has made the increments and the other
accesses that the patterns ask for, where an increment takes two accesses each
time it is tried; all that it issued was completed, and all that was refused was
submitted again.  The allocator has accepted and completed what the ports
issued, and refused what they count as rejected; the memory has answered what it
was sent, and the ports were told of all store-conditionals without effect. -/
theorem summary_balances {s' : Simulation} (hnew : Simulation.new s level = .ok sim)
    (hok : sim.simulate = .ok summary s') (hissued : summary.sum (·.issued) ≤ maxWord)
    (hrejects : summary.sum (·.rejects) ≤ maxWord) : summary.Balances s := by
  obtain ⟨es, m, m', hreconciled, hdone, hidle, hrests, hallocator, hmemory, hgenerators⟩ :=
    closes_of_simulate hnew hok
  obtain ⟨sent, hle, htells, haccepted, hresponses, hfailures⟩ :=
    hreconciled.settled hidle hrests
  have hsum : ∀ f : GeneratorCounters → Nat, summary.sum f =
      total (m'.lanes.map (f ·.stats)) := by
    intro f
    unfold Summary.sum
    rw [hgenerators, List.map_map]
    rfl
  have hlane : ∀ x ∈ summary.generators, x.2.scSuccesses = s.increments ∧
      x.2.issued = s.accesses + 2 * (x.2.scSuccesses + x.2.scFailures) ∧
      x.2.completed = x.2.issued ∧ x.2.retries = x.2.rejects := by
    intro x hx
    rw [hgenerators] at hx
    obtain ⟨g, hg, rfl⟩ := List.mem_map.mp hx
    obtain ⟨hincrements, haccesses⟩ := (begins_of_new hnew).asks
    rw [← hincrements, ← haccesses]
    exact hreconciled.done hdone hrests g hg
  rw [hsum] at hissued hrejects
  -- a request answers for an access or more, so what was sent fits a word
  have hword : sent ≤ maxWord := Nat.le_trans hle hissued
  exact {
    ports := by
      rw [hgenerators, List.map_map]
      exact (hreconciled.rests hrests).ports
    scSuccesses := fun x hx => (hlane x hx).1
    issued := fun x hx => (hlane x hx).2.1
    completed := fun x hx => (hlane x hx).2.2.1
    retries := fun x hx => (hlane x hx).2.2.2
    accepted := by rw [hallocator, htells.accepted, hsum, Nat.min_eq_left hissued]
    requestCount := by rw [hallocator, htells.retired, hsum, Nat.min_eq_left hissued]
    responsesDelivered := by rw [hallocator, htells.delivered, hsum, Nat.min_eq_left hissued]
    requestorRejects := by rw [hallocator, htells.refused, hsum, Nat.min_eq_left hrejects]
    backendSends := by rw [hallocator, htells.sent, hmemory, haccepted, Nat.min_eq_left hword]
    responsesDrained := by
      rw [hallocator, htells.drained, hmemory, haccepted, Nat.min_eq_left hword]
    responses := by rw [hmemory, hresponses, haccepted]
    scFailures := by rw [hmemory, hfailures, hsum] }

/-- Two ports increment the counter and load from the shared region three times
each.  The second has a longer way to the memory, and locks expire early. -/
def racingIncrements : Settings where
  simulation := { timeout := 40 }
  allocator := {
    numPorts := 2, requestLatency := 0, portRequestLatency := some [0, 1]
    lineSize := 4, lockTimeout := 3 }
  memory := { latency := 0, memoryBytes := 32 }
  traffic := {
    lockstep := false, reqsPerPattern := 3, layout := ⟨0, 4, 4⟩, printLines := false
    patterns := [{ kind := "atomic" }, { kind := "strided" }] }

/-- The summary balances, although a submission was refused and a
store-conditional had no effect. -/
theorem summary_balances_racingIncrements : ∃ sim summary s',
    Simulation.new racingIncrements .warn = .ok sim ∧ sim.simulate = .ok summary s' ∧
    summary.allocator.requestorRejects = 1 ∧ summary.memory.scFailures = 1 ∧
    summary.sum (·.issued) ≤ maxWord ∧ summary.sum (·.rejects) ≤ maxWord ∧
    summary.Balances racingIncrements := by
  obtain ⟨sim, hnew, hsim⟩ := exists_of_any (x := Simulation.new racingIncrements .warn)
    (p := fun sim => match sim.simulate with
      | .ok summary _ =>
        decide (summary.allocator.requestorRejects = 1 ∧ summary.memory.scFailures = 1 ∧
          summary.sum (·.issued) ≤ maxWord ∧ summary.sum (·.rejects) ≤ maxWord)
      | .error _ _ => false) (by decide +kernel)
  cases hok : sim.simulate with
  | error e s' =>
    rw [hok] at hsim
    cases hsim
  | ok summary s' =>
    rw [hok, decide_eq_true_eq] at hsim
    obtain ⟨hone, hfailed, hissued, hrejects⟩ := hsim
    exact ⟨sim, summary, s', hnew, hok, hone, hfailed, hissued, hrejects,
      summary_balances hnew hok hissued hrejects⟩

end Simulation

end MemPort
