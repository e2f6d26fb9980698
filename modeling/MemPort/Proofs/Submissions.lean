import MemPort.Proofs.Happenings

/-!
# What a generator submits

A generator makes its accesses one after the other, and submits each of them
until it is taken.  Whatever the allocator takes and refuses, and however
completions, leaves to repeat a submission and snoops come in between, no access
is lost, taken twice or overtaken by a later one.

To say so, a diary is kept of what a generator does and is told (`Deed`).  The
invariant (`Diary.Faithful`) ties the state of the generator to the diary: what
is awaited is what was taken and has not come back, with the access that waits
to be taken behind it; and whether that one may be submitted again is what the
diary says of the last refusal.  An access is awaited from when it is made, and
not from when it is taken.  So in its part of a cycle a generator goes through
two steps, and the invariant holds after each: an access that is made waits to
be taken, and then it is taken or refused.

## Main definitions

* `Deed`, `makings`, `handovers`, `returns`, `outstanding` — what a diary
  says.
* `Generator.deeds` — what a generator does in its part of a cycle.
* `Diary.call` — a call of a generator, with the record of what it does.
* `Diary.Faithful` — a diary tells the state of its generator.

## Main results

* `Faithful.made`, `Faithful.submitted` — what the two steps keep.
* `Faithful.call` — what a call keeps.
* `submissions_in_order` — no access is lost, repeated or overtaken.

## References

`SPEC_FULL.md`, section 10.7: the retry protocol and the barrier; section 8,
correctness of backpressure.
-/

namespace MemPort

/-! ### What is done -/

/-- What a generator does and is told. -/
inductive Deed where
  /-- It makes an access. -/
  | made (txn : Transaction)
  /-- It submits an access, which is taken. -/
  | taken (txn : Transaction)
  /-- It submits an access, which is refused. -/
  | refused (txn : Transaction)
  /-- The completion under a tag comes back. -/
  | returned (tag : Nat)
  /-- There is leave to repeat a submission. -/
  | leave
  deriving DecidableEq, Repr

namespace Deed

/-- The access that is made. -/
def making? : Deed → Option Transaction
  | made txn => some txn
  | _ => none

/-- The access that is taken. -/
def handover? : Deed → Option Transaction
  | taken txn => some txn
  | _ => none

/-- The tag whose completion comes back. -/
def return? : Deed → Option Nat
  | returned tag => some tag
  | _ => none

/-- The access that is submitted. -/
def submission? : Deed → Option Transaction
  | taken txn | refused txn => some txn
  | _ => none

/-- The access that waits to be taken after a deed, and whether it may be
submitted. -/
def after (waiting : Option (Transaction × Bool)) : Deed → Option (Transaction × Bool)
  | made txn => some (txn, true)
  | taken _ => none
  | refused txn => some (txn, false)
  | returned _ => waiting
  | leave => waiting.map fun w => (w.1, true)

/-- An access is made only where none waits, and submitted only where it waits
and may be submitted. -/
def Allowed (waiting : Option (Transaction × Bool)) : Deed → Prop
  | made _ => waiting = none
  | taken txn | refused txn => waiting = some (txn, true)
  | returned _ | leave => True

end Deed

/-- The accesses that were made. -/
def makings (ds : List Deed) : List Transaction := ds.filterMap Deed.making?

/-- The accesses that were taken. -/
def handovers (ds : List Deed) : List Transaction := ds.filterMap Deed.handover?

/-- The accesses that were submitted, each as often as it was. -/
def submissions (ds : List Deed) : List Transaction := ds.filterMap Deed.submission?

/-- The tags whose completions came back. -/
def returns (ds : List Deed) : List Nat := ds.filterMap Deed.return?

/-- The accesses that were taken and whose completions did not come back. -/
def outstanding (ds : List Deed) : List Transaction :=
  (handovers ds).filter fun txn => txn.tag ∉ returns ds

/-- The access that waits to be taken, and whether it may be submitted. -/
def waitingAfter (ds : List Deed) : Option (Transaction × Bool) := ds.foldl Deed.after none

/-- All deeds are allowed, from some state on. -/
def Patient (waiting : Option (Transaction × Bool)) : List Deed → Prop
  | [] => True
  | d :: ds => d.Allowed waiting ∧ Patient (d.after waiting) ds

section Deeds

variable {ds ds' : List Deed} {d : Deed} {txn again : Transaction}
  {waiting : Option (Transaction × Bool)}

theorem makings_concat (ds : List Deed) (d : Deed) :
    makings (ds ++ [d]) = makings ds ++ d.making?.toList := by
  unfold makings
  rw [List.filterMap_append]
  cases d <;> rfl

theorem handovers_concat (ds : List Deed) (d : Deed) :
    handovers (ds ++ [d]) = handovers ds ++ d.handover?.toList := by
  unfold handovers
  rw [List.filterMap_append]
  cases d <;> rfl

theorem returns_concat (ds : List Deed) (d : Deed) :
    returns (ds ++ [d]) = returns ds ++ d.return?.toList := by
  unfold returns
  rw [List.filterMap_append]
  cases d <;> rfl

theorem makings_concat_of_none (h : d.making? = none) : makings (ds ++ [d]) = makings ds := by
  rw [makings_concat, h, Option.toList_none, List.append_nil]

theorem handovers_concat_of_none (h : d.handover? = none) :
    handovers (ds ++ [d]) = handovers ds := by
  rw [handovers_concat, h, Option.toList_none, List.append_nil]

theorem returns_concat_of_none (h : d.return? = none) : returns (ds ++ [d]) = returns ds := by
  rw [returns_concat, h, Option.toList_none, List.append_nil]

/-- What is taken is outstanding, if it has not come back already. -/
theorem outstanding_concat (hreturn : d.return? = none)
    (hfresh : ∀ txn ∈ d.handover?.toList, txn.tag ∉ returns ds) :
    outstanding (ds ++ [d]) = outstanding ds ++ d.handover?.toList := by
  unfold outstanding
  rw [returns_concat_of_none hreturn, handovers_concat, List.filter_append]
  congr 1
  exact List.filter_eq_self.mpr fun txn htxn => decide_eq_true (hfresh txn htxn)

theorem outstanding_concat_of_none (hreturn : d.return? = none) (hhandover : d.handover? = none) :
    outstanding (ds ++ [d]) = outstanding ds := by
  rw [outstanding_concat hreturn (hhandover ▸ nofun), hhandover, Option.toList_none,
    List.append_nil]

/-- What comes back is not outstanding any more. -/
theorem outstanding_concat_returned (ds : List Deed) (tag : Nat) :
    outstanding (ds ++ [.returned tag]) = (outstanding ds).filter fun txn => txn.tag != tag := by
  have hhandovers : handovers (ds ++ [.returned tag]) = handovers ds := handovers_concat_of_none rfl
  unfold outstanding
  rw [hhandovers, returns_concat, List.filter_filter]
  refine List.filter_congr fun txn _ => ?_
  rw [Bool.eq_iff_iff, Bool.and_eq_true, bne_iff_ne, decide_eq_true_eq, decide_eq_true_eq,
    List.mem_append, not_or, and_comm]
  exact and_congr_left' List.mem_singleton.not

theorem mem_of_mem_outstanding (h : txn ∈ outstanding ds) : txn ∈ handovers ds :=
  (List.mem_filter.mp h).1

theorem waitingAfter_concat (ds : List Deed) (d : Deed) :
    waitingAfter (ds ++ [d]) = d.after (waitingAfter ds) := List.foldl_concat ..

theorem patient_append :
    Patient waiting (ds ++ ds') ↔ Patient waiting ds ∧
    Patient (ds.foldl Deed.after waiting) ds' := by
  induction ds generalizing waiting with
  | nil => exact (and_iff_right trivial).symm
  | cons d ds ih => rw [List.cons_append, Patient, Patient, ih, and_assoc, List.foldl_cons]

theorem Patient.concat (h : Patient none ds) (hallowed : d.Allowed (waitingAfter ds)) :
    Patient none (ds ++ [d]) :=
  patient_append.mpr ⟨h, hallowed, trivial⟩

/-- While an access waits, the next submission is the one of this access, and
there is leave for it before, unless it may be submitted already. -/
theorem Patient.next {may : Bool} (h : Patient (some (txn, may)) (ds ++ d :: ds'))
    (hnone : ∀ e ∈ ds, e.submission? = none) (hd : d.submission? = some again) :
    again = txn ∧ (may = true ∨ .leave ∈ ds) := by
  -- on the deeds in between, with the permission free: a leave grants it
  induction ds generalizing may with
  | nil =>
    have hallowed : d.Allowed (some (txn, may)) := h.1
    cases d with
    | taken t =>
      cases hd
      cases hallowed
      exact ⟨rfl, .inl rfl⟩
    | refused t =>
      cases hd
      cases hallowed
      exact ⟨rfl, .inl rfl⟩
    | made t => cases hd
    | returned tag => cases hd
    | leave => cases hd
  | cons e ds ih =>
    obtain ⟨hallowed, hrest⟩ := h
    obtain ⟨hquiet, hothers⟩ := List.forall_mem_cons.mp hnone
    cases e with
    | made t => cases hallowed
    | taken t => cases hquiet
    | refused t => cases hquiet
    | returned tag =>
      exact (ih hrest hothers).imp_right fun h => h.imp_right (List.mem_cons_of_mem _)
    | leave => exact ⟨(ih hrest hothers).1, .inr List.mem_cons_self⟩

end Deeds

/-! ### Calls -/

/-- What happens to an access, as its generator sees it. -/
def Happening.deed : Happening → Deed
  | .made _ _ txn => .made txn
  | .submitted _ txn taken => if taken then .taken txn else .refused txn
  | .completed _ response => .returned response.tag

namespace Generator

/-- What a generator does in its part of a cycle. -/
def deeds (g : Generator) (now : Nat) (set : PatternSet) (a : Allocator) : List Deed :=
  (g.happenings now set a).map Happening.deed

/-- The access that a generator submits to an allocator is taken or refused. -/
def submitting (g : Generator) (now : Nat) (a : Allocator) (txn : Transaction) : Deed :=
  (Happening.submitted g.port txn (a.takes now g.port txn)).deed

/-- What can be called of a generator. -/
inductive Call where
  /-- Its part of a cycle, with an allocator in any state. -/
  | tick (now : Nat) (a : Allocator)
  /-- A completion comes back. -/
  | receive (r : Response)
  /-- There is leave to repeat a submission. -/
  | retried
  /-- Another lane made an exclusive access. -/
  | snooped (snoop : Snoop)
  /-- All lanes may go on to the next pattern. -/
  | advance
  /-- What was found wrong is asked for. -/
  | takeFault

end Generator

/-- A generator, with the record of what it has done. -/
structure Diary where
  /-- What it has done, and what it was told. -/
  deeds : List Deed
  /-- The generator. -/
  generator : Generator

/-- A generator that is to work through some patterns, and has done nothing yet. -/
def Diary.new (port numPorts : Nat) (config : TrafficConfig) (set : PatternSet) : Diary :=
  ⟨[], .new port numPorts config set⟩

/-- A call of a generator.  A completion comes back only for an access that was
taken, and a generator goes on to the next pattern only from the end of one.
There is no result if the call is not made, or is interrupted. -/
def Diary.call (set : PatternSet) (d : Diary) : Generator.Call → Option Diary
  | .tick now a =>
      match d.generator.tick now set a with
      | .error _ => none
      | .ok l => some ⟨d.deeds ++ d.generator.deeds now set a, l.value.2.1⟩
  | .receive r =>
      if r.tag ∈ (handovers d.deeds).map (·.tag) then
        match (d.generator.receive r).value with
        | (.error _, _) => none
        | (.ok (), g) => some ⟨d.deeds ++ [.returned r.tag], g⟩
      else none
  | .retried => some ⟨d.deeds ++ [.leave], d.generator.retried.value⟩
  | .snooped snoop =>
      match (d.generator.snooped snoop).value with
      | (.error _, _) => none
      | (.ok (), g) => some ⟨d.deeds, g⟩
  | .advance =>
    if d.generator.atBarrier then some ⟨d.deeds, (d.generator.advance set).2⟩ else none
  | .takeFault => some ⟨d.deeds, d.generator.takeFault.2⟩

/-! ### The diary and the state -/

/-- Whether the current pattern of a generator increments the counter. -/
def Generator.increments (g : Generator) (set : PatternSet) : Bool :=
  set.patterns[g.pattern]?.any (·.isAtomic)

/-- An access of a pattern is only made where there is room for it. -/
theorem Generator.size_lt_of_offer? {g : Generator} {now : Nat} {set : PatternSet}
    {txn : Transaction} {p : Pattern}
    (hoffer : g.offer? now set = some (true, txn)) (hp : set.patterns[g.pattern]? = some p)
    (hother : p.isAtomic = false) : g.inflight.size < g.maxInflight := by
  unfold offer? at hoffer
  simp only [hp, hother, Bool.false_eq_true, if_false] at hoffer
  split at hoffer
  · cases hoffer
  · split at hoffer
    · cases hoffer
    · split at hoffer
      · cases hoffer
      · unfold nextAccess at hoffer
        by_cases hfull : g.maxInflight ≤ g.inflight.size
        · simp only [if_pos hfull] at hoffer
          cases hoffer
        · exact Nat.not_le.mp hfull

/-- What a diary tells of the state of its generator, which may await a number
of accesses. -/
structure Diary.Faithful (set : PatternSet) (limit : Nat) (ds : List Deed)
    (g : Generator) : Prop where
  /-- What was taken, and then what waits, is what was made. -/
  order : handovers ds ++ g.pending.toList = makings ds
  /-- Accesses are numbered as they are made. -/
  tags : (makings ds).map (·.tag) = List.range g.nextTag
  /-- Only what was taken comes back. -/
  returned : ∀ tag ∈ returns ds, tag ∈ (handovers ds).map (·.tag)
  /-- What is awaited is what was taken and did not come back, and then what
  waits. -/
  awaited : g.inflight.entries.map (·.1) = (outstanding ds ++ g.pending.toList).map (·.tag)
  /-- The generator knows how many accesses it may await. -/
  limit_eq : g.maxInflight = limit
  /-- It may await one. -/
  limit_pos : 0 < limit
  /-- It does not await more than it may. -/
  room : g.inflight.size ≤ limit
  /-- It awaits one increment at a time. -/
  single : g.increments set = true → g.inflight.size ≤ 1
  /-- The diary says what waits, and whether it may be submitted. -/
  waits : waitingAfter ds = g.pending.map fun txn => (txn, !g.blocked)
  /-- Only what waits is kept from being submitted. -/
  kept : g.blocked = true → g.pending.isSome = true
  /-- At the end of a pattern nothing is awaited. -/
  rests : g.phase = .atBarrier → g.inflight.isEmpty = true ∧ g.pending = none
  /-- The generator has been patient. -/
  patient : Patient none ds

namespace Diary
namespace Faithful

variable {set : PatternSet} {limit : Nat} {ds : List Deed} {g g' : Generator} {txn : Transaction}
  {a a' : Allocator}

theorem of_new (port numPorts : Nat) (config : TrafficConfig) (set : PatternSet) :
    Faithful set (max config.maxInflight 1) [] (.new port numPorts config set) where
  order := rfl
  tags := rfl
  returned := nofun
  awaited := rfl
  limit_eq := rfl
  limit_pos := Nat.lt_of_lt_of_le Nat.zero_lt_one (Nat.le_max_right _ _)
  room := Nat.zero_le _
  single := fun _ => Nat.zero_le _
  waits := rfl
  kept := nofun
  rests := fun h => by
    unfold Generator.new at h
    simp only at h
    split at h
    · cases h
    · cases h
  patient := trivial

/-- All accesses have different tags. -/
theorem nodup (h : Faithful set limit ds g) : ((makings ds).map (·.tag)).Nodup :=
  h.tags ▸ List.nodup_range

/-- An access that waits has not been taken. -/
theorem fresh (h : Faithful set limit ds g) (hpending : g.pending = some txn) :
    txn.tag ∉ (handovers ds).map (·.tag) := by
  have hnodup := h.nodup
  rw [← h.order, hpending, List.map_append, List.nodup_append] at hnodup
  intro hmem
  exact hnodup.2.2 _ hmem _ List.mem_cons_self rfl

/-- What is awaited has a tag that was given. -/
theorem below (h : Faithful set limit ds g) {tag : Nat} {awaited : Awaited}
    (hget : g.inflight.get? tag = some awaited) : tag < g.nextTag := by
  have hmem : tag ∈ g.inflight.entries.map (·.1) :=
    List.mem_map.mpr ⟨(tag, awaited), (AscMap.mem_entries_iff _ _ _).mpr hget, rfl⟩
  rw [h.awaited] at hmem
  obtain ⟨txn, htxn, rfl⟩ := List.mem_map.mp hmem
  have hmade : txn ∈ makings ds := by
    rw [← h.order]
    rcases List.mem_append.mp htxn with htxn | htxn
    · exact List.mem_append_left _ (mem_of_mem_outstanding htxn)
    · exact List.mem_append_right _ htxn
  exact List.mem_range.mp (h.tags ▸ List.mem_map_of_mem hmade)

/-- As many accesses are awaited as are in flight or wait. -/
theorem size_eq (h : Faithful set limit ds g) :
    g.inflight.size = (outstanding ds).length + g.pending.toList.length := by
  have hlength := congrArg List.length h.awaited
  rw [List.length_map, List.length_map, List.length_append] at hlength
  exact hlength

/-- A deed by which nothing is made, taken or given back changes at most whether
what waits may be submitted. -/
theorem noted {d : Deed} (h : Faithful set limit ds g) (hmaking : d.making? = none)
    (hhandover : d.handover? = none)
    (hreturn : d.return? = none) (hallowed : d.Allowed (waitingAfter ds)) {blocked : Bool}
    (hafter : d.after (waitingAfter ds) = g.pending.map fun txn => (txn, !blocked))
    (hkept : blocked = true → g.pending.isSome = true) (fault : Option GeneratorFault)
    (stats : GeneratorCounters) :
    Faithful set limit (ds ++ [d]) { g with blocked, fault, stats } := by
  have hmakings : makings (ds ++ [d]) = makings ds := makings_concat_of_none hmaking
  have hhandovers : handovers (ds ++ [d]) = handovers ds := handovers_concat_of_none hhandover
  have hreturns : returns (ds ++ [d]) = returns ds := returns_concat_of_none hreturn
  have houtstanding : outstanding (ds ++ [d]) = outstanding ds :=
    outstanding_concat_of_none hreturn hhandover
  exact { h with
    order := hmakings ▸ hhandovers ▸ h.order
    tags := hmakings ▸ h.tags
    returned := hreturns ▸ hhandovers ▸ h.returned
    awaited := houtstanding ▸ h.awaited
    waits := waitingAfter_concat ds d ▸ hafter
    kept := hkept
    patient := h.patient.concat hallowed }

/-! ### The two steps of a submission -/

/-- **An access that is made waits to be taken.** -/
theorem made {p : Pattern} (h : Faithful set limit ds g) (hrunning : g.phase = .running)
    (hopen : g.blocked = false)
    (hpending : g.pending = none) (hp : set.patterns[g.pattern]? = some p)
    (hmakes : g.Makes p txn g') (hroom : p.isAtomic = false → g.inflight.size < g.maxInflight) :
    Faithful set limit (ds ++ [.made txn]) { g' with pending := some txn } := by
  have hone : p.isAtomic = true → g.inflight.size = 0 := fun hatomic => by
    cases hmakes with
    | loads _ hempty => exact AscMap.size_of_isEmpty hempty
    | stores _ hempty => exact AscMap.size_of_isEmpty hempty
    | accesses hother => cases hatomic.symm.trans hother
  obtain ⟨htag, awaited, reqIndex, shadow, scValue, rfl⟩ := hmakes.frame
  -- the next tag is above all that are awaited
  have hentries : (g.inflight.insert g.nextTag awaited).entries =
      g.inflight.entries ++ [(g.nextTag, awaited)] :=
    AscMap.entries_insert_of_lt awaited fun _ _ => h.below
  have hsize := AscMap.size_insert_of_lt awaited fun _ _ => h.below
  have hnone : g.pending.toList = [] := by rw [hpending, Option.toList_none]
  have horder := h.order
  have hawaited := h.awaited
  have hwaits := h.waits
  rw [hnone, List.append_nil] at horder hawaited
  rw [hpending, Option.map_none] at hwaits
  have hmakings : makings (ds ++ [.made txn]) = makings ds ++ [txn] := makings_concat ds (.made txn)
  have hhandovers : handovers (ds ++ [.made txn]) = handovers ds := handovers_concat_of_none rfl
  have hreturns : returns (ds ++ [.made txn]) = returns ds := returns_concat_of_none rfl
  have houtstanding : outstanding (ds ++ [.made txn]) = outstanding ds :=
    outstanding_concat_of_none rfl rfl
  refine { h with
    order := by
      rw [hhandovers, hmakings, horder]
      rfl
    tags := by rw [hmakings, List.map_append, h.tags, List.map_singleton, htag, List.range_succ]
    returned := hreturns ▸ hhandovers ▸ h.returned
    awaited := by
      rw [houtstanding, hentries, List.map_append, List.map_append, hawaited,
        List.map_singleton, ← htag]
      rfl
    room := ?_
    single := fun hincrements => ?_
    waits := ?_
    kept := fun _ => rfl
    rests := fun hrests => nomatch hrunning.symm.trans hrests
    patient := h.patient.concat hwaits }
  · simp only [hsize]
    cases hatomic : p.isAtomic with
    | true =>
      rw [hone hatomic]
      exact h.limit_pos
    | false => exact h.limit_eq ▸ hroom hatomic
  · unfold Generator.increments at hincrements
    simp only [hp, Option.any_some] at hincrements
    simp only [hsize, hone hincrements, Nat.zero_add, Nat.le_refl]
  · rw [waitingAfter_concat, Deed.after, Option.map_some, hopen]
    rfl

/-- **An access that waits and may be submitted is taken or refused.** -/
theorem submitted (h : Faithful set limit ds { g with pending := some txn })
    (hopen : g.blocked = false)
    (hrunning : g.phase = .running) (hsubmits : g.Submits txn a g' a') :
    Faithful set limit (ds ++ [g.submitting g.now a txn]) g' := by
  have hwaits : waitingAfter ds = some (txn, true) := by
    rw [h.waits, Option.map_some, hopen]
    rfl
  unfold Generator.submitting Happening.deed Allocator.takes
  cases hsubmits with
  | taken hsubmit htaken =>
    simp only [hsubmit, htaken, if_true]
    -- the transaction waited, so its tag has not come back yet
    have hfresh : txn.tag ∉ returns ds := fun hmem => h.fresh rfl (h.returned _ hmem)
    have hmakings : makings (ds ++ [.taken txn]) = makings ds := makings_concat_of_none rfl
    have hhandovers : handovers (ds ++ [.taken txn]) = handovers ds ++ [txn] :=
      handovers_concat ds (.taken txn)
    have hreturns : returns (ds ++ [.taken txn]) = returns ds := returns_concat_of_none rfl
    have houtstanding : outstanding (ds ++ [.taken txn]) = outstanding ds ++ [txn] :=
      outstanding_concat rfl fun t ht => List.mem_singleton.mp ht ▸ hfresh
    exact { h with
      order := by
        rw [hhandovers, hmakings, ← h.order]
        exact List.append_nil _
      tags := hmakings ▸ h.tags
      returned := fun tag htag => by
        rw [hhandovers, List.map_append]
        exact List.mem_append_left _ (h.returned tag (hreturns ▸ htag))
      awaited := by
        rw [houtstanding]
        exact h.awaited.trans (congrArg _ (List.append_nil _).symm)
      waits := waitingAfter_concat ds _
      kept := fun hblocked => nomatch hopen.symm.trans hblocked
      rests := fun hrests => nomatch hrunning.symm.trans hrests
      patient := h.patient.concat hwaits }
  | refused hsubmit hrefused =>
    simp only [hsubmit, hrefused, Bool.false_eq_true, if_false]
    exact h.noted (d := .refused txn) rfl rfl rfl hwaits rfl (fun _ => rfl) _ _

/-! ### What a call keeps -/

theorem tick {now : Nat} {l : Logged (Option Nat × Generator × Allocator)}
    (h : Faithful set limit ds g) (htick : g.tick now set a = .ok l) :
    Faithful set limit (ds ++ g.deeds now set a) l.value.2.1 := by
  have hmoves := Generator.moves_of_tick htick
  have hroom : ∀ txn p, g.offer? now set = some (true, txn) →
      set.patterns[g.pattern]? = some p →
        p.isAtomic = false → g.inflight.size < g.maxInflight :=
      fun _ _ => Generator.size_lt_of_offer?
  have h : Faithful set limit ds { g with now } := { h with }
  unfold Generator.deeds Generator.happenings
  generalize g.offer? now set = offer at hmoves hroom
  generalize l.value.2.1 = g', l.value.2.2 = a' at hmoves
  -- one case for each way a tick can go; only two of them submit
  cases hmoves with
  | waits => exact (List.append_nil ds).symm ▸ h
  | ends => exact (List.append_nil ds).symm ▸ { h with rests := nofun }
  | finishes _ hpending _ hempty =>
    exact (List.append_nil ds).symm ▸ { h with rests := fun _ => ⟨hempty, hpending⟩ }
  | @repeats txn _ _ hrunning hopen hpending hsubmits =>
    have hsame : ({ ({ g with now } : Generator) with pending := some txn } : Generator) =
      { g with now } := by
      rw [← hpending]
    rw [← hsame] at h
    exact submitted h hopen hrunning hsubmits
  | @makes p txn g₁ _ _ hrunning hopen hpending hp _ hmakes hsubmits =>
    have hmade := h.made hrunning hopen hpending hp hmakes (hroom txn p rfl hp)
    obtain ⟨-, awaited, reqIndex, shadow, scValue, rfl⟩ := hmakes.frame
    have hsubmitted := submitted hmade hopen hrunning hsubmits
    rwa [List.append_assoc] at hsubmitted

theorem receive {r : Response} (h : Faithful set limit ds g)
    (htaken : r.tag ∈ (handovers ds).map (·.tag))
    (hreceive : (g.receive r).value = (.ok (), g')) :
    Faithful set limit (ds ++ [.returned r.tag]) g' := by
  obtain ⟨reqIndex, scValue, fault, stats, rfl⟩ :=
    (Generator.receives_of_receive hreceive).frame
  have hmakings : makings (ds ++ [.returned r.tag]) = makings ds := makings_concat_of_none rfl
  have hhandovers : handovers (ds ++ [.returned r.tag]) = handovers ds :=
    handovers_concat_of_none rfl
  have hreturns : returns (ds ++ [.returned r.tag]) = returns ds ++ [r.tag] :=
    returns_concat ds (.returned r.tag)
  have hle : (g.inflight.erase r.tag).size ≤ g.inflight.size := List.length_filter_le _ _
  -- what waits was not taken, so it is not what comes back
  have hpending : g.pending.toList.filter (fun txn => txn.tag != r.tag) = g.pending.toList := by
    refine List.filter_eq_self.mpr fun txn htxn => bne_iff_ne.mpr fun htag => ?_
    exact h.fresh (Option.mem_toList.mp htxn) (htag ▸ htaken)
  exact { h with
    order := hmakings ▸ hhandovers ▸ h.order
    tags := hmakings ▸ h.tags
    returned := fun tag htag => by
      rw [hreturns, List.mem_append, List.mem_singleton] at htag
      rw [hhandovers]
      rcases htag with htag | rfl
      · exact h.returned tag htag
      · exact htaken
    awaited := by
      have hawaited := congrArg (List.filter (· != r.tag)) h.awaited
      rw [List.filter_map, List.filter_map, List.filter_append] at hawaited
      rw [outstanding_concat_returned, ← hpending]
      exact hawaited
    room := Nat.le_trans hle h.room
    single := fun hincrements => Nat.le_trans hle (h.single hincrements)
    waits := (waitingAfter_concat ds _).trans h.waits
    rests := fun hrests => by
      obtain ⟨hempty, hnone⟩ := h.rests hrests
      have hget := AscMap.get?_of_isEmpty hempty r.tag
      exact ⟨(AscMap.erase_of_get?_eq_none hget).symm ▸ hempty, hnone⟩
    patient := h.patient.concat trivial }

theorem retried (h : Faithful set limit ds g) :
    Faithful set limit (ds ++ [.leave]) g.retried.value := by
  have hafter : Deed.leave.after (waitingAfter ds) = g.pending.map fun txn => (txn, !false) := by
    rw [h.waits, Deed.after, Option.map_map]
    rfl
  have hnoted := h.noted (d := .leave) rfl rfl rfl trivial hafter nofun
  unfold Generator.retried
  split
  · exact hnoted _ _
  · rename_i hopen
    have hleft := hnoted (g.fault.or (some (.spuriousRetry g.port))) g.stats
    rw [Bool.not_eq_true] at hopen
    rwa [← hopen] at hleft

theorem snooped (h : Faithful set limit ds g) (snoop : Snoop) :
    Faithful set limit ds (g.snooped snoop).value.2 := by
  unfold Generator.snooped
  simp only
  split
  · exact { h with }
  · split
    · exact { h with }
    · exact { h with }

theorem advance (h : Faithful set limit ds g) (hrests : g.atBarrier = true) :
    Faithful set limit ds (g.advance set).2 := by
  have hempty : g.inflight.size = 0 := AscMap.size_of_isEmpty (h.rests (eq_of_beq hrests)).1
  have hsingle : g.inflight.size ≤ 1 := hempty ▸ Nat.zero_le 1
  unfold Generator.advance
  simp only
  split
  · exact { h with single := fun _ => hsingle, rests := nofun }
  · exact { h with single := fun _ => hsingle, rests := nofun }

/-- **What a call keeps**: the diary goes on to tell the state of the generator. -/
theorem call {d d' : Diary} {c : Generator.Call} (h : Faithful set limit d.deeds d.generator)
    (hcall : d.call set c = some d') : Faithful set limit d'.deeds d'.generator := by
  unfold Diary.call at hcall
  cases c with
  | tick now a =>
    simp only at hcall
    split at hcall
    · cases hcall
    · rename_i htick
      cases hcall
      exact h.tick htick
  -- a response is written down only where the generator expects it
  | receive r =>
    simp only at hcall
    split at hcall
    · rename_i htaken
      split at hcall
      · cases hcall
      · rename_i hreceive
        cases hcall
        exact h.receive htaken hreceive
    · cases hcall
  | retried =>
    cases hcall
    exact h.retried
  | snooped snoop =>
    simp only at hcall
    split at hcall
    · cases hcall
    · rename_i hsnooped
      cases hcall
      have hsnoop := h.snooped snoop
      rwa [hsnooped] at hsnoop
  | advance =>
    simp only at hcall
    split at hcall
    · rename_i hrests
      cases hcall
      exact h.advance hrests
    · cases hcall
  | takeFault =>
    cases hcall
    exact { h with }

theorem calls {cs : List Generator.Call} {d d' : Diary} (h : Faithful set limit d.deeds d.generator)
    (hcalls : cs.foldlM (Diary.call set) d = some d') :
    Faithful set limit d'.deeds d'.generator := by
  induction cs generalizing d with
  | nil =>
    cases hcalls
    exact h
  | cons c cs ih =>
    rw [List.foldlM_cons] at hcalls
    obtain ⟨d₁, hcall, hcalls⟩ := Option.bind_eq_some_iff.mp hcalls
    exact ih (h.call hcall) hcalls

end Faithful
end Diary

theorem Generator.Submits.allocator_eq {g g' : Generator} {txn : Transaction} {a a' : Allocator}
    (h : g.Submits txn a g' a') (ds : List Deed) (hds : submissions ds = [txn]) :
    (submissions ds).foldlM (fun a txn => (a.submit g.now g.port txn).map (·.value.2)) a =
      .ok a' := by
  rw [hds, List.foldlM_cons]
  cases h with
  | taken hsubmit =>
    rw [hsubmit]
    rfl
  | refused hsubmit =>
    rw [hsubmit]
    rfl

/-- **The submissions in a diary are those that an allocator gets**: it ends as
they leave it, one after the other. -/
theorem Generator.allocator_of_tick {g : Generator} {set : PatternSet} {now : Nat} {a : Allocator}
    {l : Logged (Option Nat × Generator × Allocator)} (h : g.tick now set a = .ok l) :
    (submissions (g.deeds now set a)).foldlM
      (fun a txn => (a.submit now g.port txn).map (·.value.2)) a =
      .ok l.value.2.2 := by
  have hmoves := moves_of_tick h
  unfold deeds happenings
  generalize g.offer? now set = offer at hmoves
  generalize l.value.2.1 = g', l.value.2.2 = a' at hmoves
  -- taken or refused, it is the same submission
  have hsubmission : ∀ txn, submissions [g.submitting now a txn] = [txn] := fun txn => by
    unfold submitting Happening.deed
    simp only
    split <;> rfl
  cases hmoves with
  | waits => rfl
  | ends => rfl
  | finishes => rfl
  | @repeats txn _ _ _ _ _ hsubmits => exact hsubmits.allocator_eq _ (hsubmission txn)
  | @makes p txn g₁ _ _ _ _ _ _ _ hmakes hsubmits =>
    obtain ⟨-, awaited, reqIndex, shadow, scValue, rfl⟩ := hmakes.frame
    exact hsubmits.allocator_eq [.made txn, g.submitting now a txn] (hsubmission txn)

/-- **A generator neither loses, repeats nor reorders its accesses.**  After any
calls of a generator that starts on any patterns, with an allocator that takes
and refuses submissions in any way:  What was taken, and behind it what waits to
be taken, is what was made, in this order, with the tags from zero on.  Between
a refusal and the next submission there is leave for it, and what is submitted
then is what was refused.  What is awaited is what was taken and has not come
back, and what waits; and that is not more than may be in flight, and at most
one access in a pattern of increments.  At the end of a pattern nothing is
awaited, and nothing waits or is kept waiting.  And what the diary says of
submissions is right: in every part of a cycle the allocator gets those and
nothing else. -/
theorem submissions_in_order {port numPorts : Nat} {config : TrafficConfig} {set : PatternSet}
    {calls : List Generator.Call} {d : Diary}
    (hcalls : calls.foldlM (Diary.call set) (.new port numPorts config set) = some d) :
    let g := d.generator
    let waiting := g.pending.toList
    (handovers d.deeds ++ waiting = makings d.deeds ∧
      (makings d.deeds).map (·.tag) = List.range g.nextTag) ∧
    (∀ before between after txn e again,
      d.deeds = before ++ .refused txn :: (between ++ e :: after) →
        (∀ e ∈ between, e.submission? = none) → e.submission? = some again →
          .leave ∈ between ∧ again = txn) ∧
    (g.inflight.entries.map (·.1) = (outstanding d.deeds ++ waiting).map (·.tag) ∧
      (outstanding d.deeds ++ waiting).length ≤ max config.maxInflight 1 ∧
      (g.increments set = true → (outstanding d.deeds ++ waiting).length ≤ 1)) ∧
    (g.phase = .atBarrier → outstanding d.deeds = [] ∧ g.pending = none ∧
      g.blocked = false) ∧
    ∀ now a l, g.tick now set a = .ok l →
      (submissions (g.deeds now set a)).foldlM
        (fun a txn => (a.submit now g.port txn).map (·.value.2)) a =
        .ok l.value.2.2 := by
  have h := (Diary.Faithful.of_new port numPorts config set).calls (d := .new ..) hcalls
  have hlength : (outstanding d.deeds ++ d.generator.pending.toList).length =
      d.generator.inflight.size := by
    rw [h.size_eq, List.length_append]
  refine ⟨⟨h.order, h.tags⟩, fun before between after txn e again hdeeds hnone he => ?_,
    ⟨h.awaited, hlength ▸ h.room, hlength ▸ h.single⟩, fun hrests => ?_,
    fun now a l => Generator.allocator_of_tick⟩
  · have hpatient := hdeeds ▸ h.patient
    obtain ⟨-, -, hrest⟩ := patient_append.mp hpatient
    obtain ⟨hagain, hmay | hleave⟩ := Patient.next hrest hnone he
    · cases hmay
    · exact ⟨hleave, hagain⟩
  · obtain ⟨hempty, hnone⟩ := h.rests hrests
    have hopen : d.generator.blocked = false := by
      cases hblocked : d.generator.blocked with
      | false => rfl
      | true =>
        have hsome := h.kept hblocked
        rw [hnone] at hsome
        cases hsome
    -- nothing is in flight at the barrier, and what is outstanding would be
    have hzero : d.generator.inflight.size = 0 := AscMap.size_of_isEmpty hempty
    rw [h.size_eq] at hzero
    exact ⟨List.length_eq_zero_iff.mp (Nat.eq_zero_of_add_eq_zero_right hzero), hnone, hopen⟩

/-- A port that makes two loads. -/
def twoLoads : PatternSet where
  patterns := [⟨"two loads", .read, .sharedRegion, 4, 64, .strided 1 1⟩]
  ports := 1
  reqsPerPattern := 2

/-- The first load is refused by an allocator that has no room, and it is
submitted again once there is leave.  Its completion comes back after the second
load was taken. -/
def refusedLoad : List Generator.Call :=
  let roomy : Allocator := .ofConfig { numPorts := 1, requestLatency := 0 }
  let full := roomy.setPort 0 ((RequestorPort.ofLatency 0 0).push 0 (.load .read 7 0 4)).value.2
  [.tick 0 full, .tick 1 full, .retried, .tick 2 roomy, .tick 3 roomy,
    .receive ⟨0, .read, 0x1000, (span 0x1000 4).map fillByte, true⟩]

/-- While there is no leave nothing is submitted; in the end, both loads were
taken, and the second is awaited. -/
theorem submissions_in_order_refusedLoad :
    ∃ d first second,
    refusedLoad.foldlM (Diary.call twoLoads) (.new 0 1 { maxInflight := 2 } twoLoads) = some d ∧
      d.deeds = [.made first, .refused first, .leave, .taken first, .made second, .taken second,
        .returned 0] ∧
      handovers d.deeds = makings d.deeds ∧ d.generator.inflight.entries.map (·.1) = [1] := by
  let first : Transaction := ⟨0, .read, 0x1000, 4, [], 0⟩
  let second : Transaction := ⟨1, .read, 0x1004, 4, [], 3⟩
  obtain ⟨d, hcalls, hvalues⟩ := (Option.any_eq_true (fun d : Diary => decide (d.deeds =
      [.made first, .refused first, .leave, .taken first, .made second, .taken second,
        .returned 0] ∧
      d.generator.pending = none))
    (refusedLoad.foldlM (Diary.call twoLoads) (.new 0 1 { maxInflight := 2 } twoLoads))).mp
      (by decide +kernel)
  obtain ⟨hdeeds, hpending⟩ := of_decide_eq_true hvalues
  obtain ⟨⟨horder, -⟩, -, ⟨hawaited, -⟩, -⟩ := submissions_in_order hcalls
  rw [hpending, Option.toList_none, List.append_nil] at horder hawaited
  rw [hdeeds] at hawaited
  exact ⟨d, first, second, hcalls, hdeeds, horder, hawaited⟩

end MemPort
