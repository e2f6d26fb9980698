import MemPort.Proofs.Happenings

/-!
# What a generator has made so far

The tag of the next access tells how many a generator has made.  They are the
accesses of the patterns that it has finished, those of the pattern that it
works on, and two for every increment of the counter that it tried, whether or
not it took effect.  What was made was taken, but for the access that waits; and
it was completed, but for those that are awaited.

## Main definitions

* `PatternSet.increments`, `PatternSet.accesses` — what the first patterns ask
  for.
* `Generator.Increments` — how far a generator is with an increment.
* `Generator.Stands` — what it has made, by what it is doing.
* `Generator.Balanced` — its counters tell what it has made.

## Main results

* `Generator.Balanced.moves`, `Generator.Balanced.receives` — its part of a
  cycle and completions keep it.
* `Generator.Balanced.of_isDone` — what a generator has counted that has
  finished all patterns.

## References

`SPEC_FULL.md`, sections 10.5 and 10.7: the counters of a synthetic requestor.
-/

namespace MemPort

namespace PatternSet

/-- The increments that the first patterns ask for. -/
def increments (set : PatternSet) (n : Nat) : Nat :=
  set.reqsPerPattern * (set.patterns.take n).countP (·.isAtomic)

/-- The other accesses that the first patterns ask for. -/
def accesses (set : PatternSet) (n : Nat) : Nat :=
  set.reqsPerPattern * (set.patterns.take n).countP (!·.isAtomic)

variable {set : PatternSet} {n : Nat} {p : Pattern}

theorem increments_succ (hp : set.patterns[n]? = some p) :
    set.increments (n + 1) = set.increments n + if p.isAtomic then set.reqsPerPattern else 0 := by
  unfold increments
  rw [List.take_add_one, hp, Option.toList_some, List.countP_append, List.countP_singleton,
    Nat.mul_add]
  split <;> simp

theorem accesses_succ (hp : set.patterns[n]? = some p) :
    set.accesses (n + 1) = set.accesses n + if p.isAtomic then 0 else set.reqsPerPattern := by
  unfold accesses
  rw [List.take_add_one, hp, Option.toList_some, List.countP_append, List.countP_singleton,
    Nat.mul_add]
  cases p.isAtomic <;> simp

end PatternSet

namespace Generator

/-- A single access is awaited, with an expectation. -/
def Awaits (g : Generator) (e : Expectation) : Prop :=
  ∃ tag awaited, g.inflight.entries = [(tag, awaited)] ∧ awaited.expectation = e

/-- How far a generator is with an increment of the counter, with the accesses
that it made for it. -/
inductive Increments (g : Generator) : Nat → Prop
  /-- It has not begun. -/
  | fresh (hempty : g.inflight.entries = []) (hvalue : g.scValue = none) : Increments g 0
  /-- The counter is being loaded. -/
  | loading (hone : g.Awaits .counterValue) (hvalue : g.scValue = none) : Increments g 1
  /-- What to store is known. -/
  | loaded {value : Nat} (hempty : g.inflight.entries = []) (hvalue : g.scValue = some value) :
      Increments g 1
  /-- It is being stored. -/
  | storing (hone : g.Awaits .incrementOutcome) (hvalue : g.scValue = none) : Increments g 2

/-- The increments that a generator tried. -/
def attempts (g : Generator) : Nat := g.stats.scSuccesses + g.stats.scFailures

/-- What a generator has made, by what it is doing. -/
inductive Stands (set : PatternSet) (g : Generator) : Prop
  /-- It works on a pattern that does not concern the counter. -/
  | accesses {p : Pattern} (hrunning : g.phase = .running) (hp : set.patterns[g.pattern]? = some p)
      (hother : p.isAtomic = false) (hreq : g.reqIndex ≤ set.reqsPerPattern)
      (hvalue : g.scValue = none)
      (hplain : ∀ tag awaited, g.inflight.get? tag = some awaited →
        awaited.expectation ≠ .counterValue ∧ awaited.expectation ≠ .incrementOutcome)
      (hsuccesses : g.stats.scSuccesses = set.increments g.pattern)
      (hmade : g.nextTag = set.accesses g.pattern + g.reqIndex + 2 * g.attempts)
  /-- It works on a pattern of increments. -/
  | increments {p : Pattern} {n : Nat} (hrunning : g.phase = .running)
      (hp : set.patterns[g.pattern]? = some p) (hatomic : p.isAtomic = true)
      (hstage : g.Increments n) (hreq : g.reqIndex ≤ set.reqsPerPattern)
      (hunder : 0 < n → g.reqIndex < set.reqsPerPattern)
      (hsuccesses : g.stats.scSuccesses = set.increments g.pattern + g.reqIndex)
      (hmade : g.nextTag = set.accesses g.pattern + 2 * g.attempts + n)
  /-- It has finished a pattern. -/
  | waits (hbarrier : g.phase = .atBarrier) (hpending : g.pending = none)
      (hempty : g.inflight.entries = []) (hvalue : g.scValue = none)
      (hsuccesses : g.stats.scSuccesses = set.increments (g.pattern + 1))
      (hmade : g.nextTag = set.accesses (g.pattern + 1) + 2 * g.attempts)
  /-- It has finished all patterns. -/
  | done (hdone : g.phase = .done) (hpending : g.pending = none)
      (hempty : g.inflight.entries = []) (hlast : set.length ≤ g.pattern)
      (hsuccesses : g.stats.scSuccesses = set.increments g.pattern)
      (hmade : g.nextTag = set.accesses g.pattern + 2 * g.attempts)

/-- The counters of a generator tell what it has made. -/
structure Balanced (set : PatternSet) (g : Generator) : Prop where
  /-- What was made was taken, or waits. -/
  issued : g.nextTag = g.stats.issued + g.pending.toList.length
  /-- It was completed, or is awaited. -/
  completed : g.nextTag = g.stats.completed + g.inflight.size
  /-- The next tag is new. -/
  below : ∀ tag awaited, g.inflight.get? tag = some awaited → tag < g.nextTag
  /-- A refusal is followed by a leave. -/
  rejects : g.stats.rejects = g.stats.retries + g.blocked.toNat
  /-- What is to be repeated waits. -/
  blocked : g.blocked = true → g.pending ≠ none
  /-- What was made is what the patterns ask for. -/
  stands : g.Stands set

end Generator

namespace Generator

variable {set : PatternSet} {g g' : Generator} {p : Pattern} {txn : Transaction}

/-- Where a generator stands depends on its patterns and on what it awaits. -/
theorem Stands.congr {now : Nat} {pending : Option Transaction} {blocked : Bool}
    {fault : Option GeneratorFault} {stats : GeneratorCounters} (h : g.Stands set)
    (hpending : g.phase ≠ .running → pending = none)
    (hsuccesses : stats.scSuccesses = g.stats.scSuccesses)
    (hfailures : stats.scFailures = g.stats.scFailures) :
    Stands set { g with now, pending, blocked, fault, stats } := by
  -- the attempts are the sum of two counters, which are as before
  have hattempts : attempts { g with now, pending, blocked, fault, stats } = g.attempts := by
    unfold attempts
    rw [hsuccesses, hfailures]
  cases h with
  | accesses hrunning hp hother hreq hvalue hplain hcount hmade =>
    exact .accesses hrunning hp hother hreq hvalue hplain (hsuccesses.trans hcount)
      (hattempts ▸ hmade)
  | increments hrunning hp hatomic hstage hreq hunder hcount hmade =>
    refine .increments hrunning hp hatomic ?_ hreq hunder (hsuccesses.trans hcount)
      (hattempts ▸ hmade)
    cases hstage with
    | fresh hempty hvalue => exact .fresh hempty hvalue
    | loading hone hvalue => exact .loading hone hvalue
    | loaded hempty hvalue => exact .loaded hempty hvalue
    | storing hone hvalue => exact .storing hone hvalue
  | waits hbarrier _ hempty hvalue hcount hmade =>
    exact .waits hbarrier (hpending (by rw [hbarrier]; nofun)) hempty hvalue
      (hsuccesses.trans hcount)
      (hattempts ▸ hmade)
  | done hdone _ hempty hlast hcount hmade =>
    exact .done hdone (hpending (by rw [hdone]; nofun)) hempty hlast (hsuccesses.trans hcount)
      (hattempts ▸ hmade)

/-- What waits to be taken waits while the generator works. -/
theorem Stands.pending_eq (h : g.Stands set) (hphase : g.phase ≠ .running) :
    g.pending = none := by
  cases h with
  | accesses hrunning => exact absurd hrunning hphase
  | increments hrunning => exact absurd hrunning hphase
  | waits _ hpending => exact hpending
  | done _ hpending => exact hpending

/-! ### An access is made -/

/-- Where none was awaited, a single access is awaited after it was made. -/
theorem awaits_await {t : Transaction} {e : Expectation} (hempty : g.inflight.entries = [])
    (htag : t.tag = g.nextTag) : (g.await t e).2.Awaits e := by
  refine ⟨g.nextTag, ⟨t.addr, e, g.now⟩, ?_, rfl⟩
  unfold await
  simp only [htag]
  rw [AscMap.entries_insert_of_lt _ fun k w hget => ?_, hempty, List.nil_append]
  exact absurd hempty (AscMap.entries_ne_nil hget)

/-- What a generator makes is what its pattern asks for. -/
theorem Stands.makes (h : g.Stands set) (hrunning : g.phase = .running)
    (hp : set.patterns[g.pattern]? = some p) (hreq : g.reqIndex < set.reqsPerPattern)
    (hmakes : g.Makes p txn g') : g'.Stands set := by
  cases h with
  | waits hbarrier => cases hbarrier.symm.trans hrunning
  | done hdone => cases hdone.symm.trans hrunning
  | accesses _ hp' hother _ hvalue hplain hsuccesses hmade =>
    cases hp.symm.trans hp'
    cases hmakes with
    | loads hatomic => cases hother.symm.trans hatomic
    | stores hatomic => cases hother.symm.trans hatomic
    | @accesses t expectation shadow _ htag hcmd hexpectation =>
      refine .accesses hrunning hp hother hreq hvalue (fun tag awaited hget => ?_) hsuccesses ?_
      · simp only [await, AscMap.get?_insert] at hget
        split at hget
        · cases hget
          exact hexpectation
        · exact hplain tag awaited hget
      · show g.nextTag + 1 = set.accesses g.pattern + (g.reqIndex + 1) + 2 * g.attempts
        omega
  | @increments _ n _ hp' hatomic hstage _ hunder hsuccesses hmade =>
    cases hp.symm.trans hp'
    -- nothing is awaited, so that the increment has not begun, or the value to
    -- store is known
    have hstage' : g.inflight.isEmpty = true → g.inflight.entries = [] ∧
        (g.scValue = none → n = 0) ∧ ∀ value, g.scValue = some value → n = 1 := by
      intro hempty
      have hnil := List.isEmpty_iff.mp hempty
      have hone : ∀ {e}, ¬ g.Awaits e := by
        rintro e ⟨tag, awaited, hentries, -⟩
        rw [hnil] at hentries
        cases hentries
      refine ⟨hnil, fun hnone => ?_, fun value hsome => ?_⟩
      · cases hstage with
        | fresh => rfl
        | loading hawaits => exact absurd hawaits hone
        | loaded _ hvalue => cases hnone.symm.trans hvalue
        | storing hawaits => exact absurd hawaits hone
      · cases hstage with
        | fresh _ hvalue => cases hsome.symm.trans hvalue
        | loading hawaits => exact absurd hawaits hone
        | loaded => rfl
        | storing hawaits => exact absurd hawaits hone
    cases hmakes with
    | accesses hother => cases hother.symm.trans hatomic
    | loads _ hempty hvalue =>
      obtain ⟨hnil, hzero, -⟩ := hstage' hempty
      refine .increments hrunning hp hatomic (.loading (awaits_await hnil rfl) hvalue)
        (Nat.le_of_lt hreq) (fun _ => hreq) hsuccesses ?_
      rw [hzero hvalue] at hmade
      exact congrArg (· + 1) hmade
    | @stores addr value _ hempty hvalue =>
      obtain ⟨hnil, -, hone⟩ := hstage' hempty
      have hawaits : (({ g with scValue := none } : Generator).await
          (.store .storeCond g.nextTag addr (wordBytes value)) .incrementOutcome).2.Awaits
            .incrementOutcome := awaits_await hnil rfl
      refine .increments hrunning hp hatomic (.storing hawaits rfl) (Nat.le_of_lt hreq)
        (fun _ => hreq) hsuccesses ?_
      rw [hone value hvalue] at hmade
      exact congrArg (· + 1) hmade

/-- **What a generator makes is counted**; it waits to be taken. -/
theorem Balanced.makes (h : g.Balanced set) (hrunning : g.phase = .running)
    (hpending : g.pending = none) (hp : set.patterns[g.pattern]? = some p)
    (hreq : g.reqIndex < set.reqsPerPattern) (hmakes : g.Makes p txn g') :
    Balanced set { g' with pending := some txn } := by
  have hstands := h.stands.makes hrunning hp hreq hmakes
  obtain ⟨-, awaited, reqIndex, shadow, scValue, rfl⟩ := hmakes.frame
  have hsize := AscMap.size_insert_of_lt awaited h.below
  -- one access more was made and awaits its answer, so both counts move by one
  have hissued := h.issued
  have hcompleted := h.completed
  rw [hpending] at hissued
  refine ⟨congrArg (· + 1) hissued, ?_, fun tag a hget => ?_, h.rejects,
    fun hblocked => ?_, ?_⟩
  · simp only [hsize]
    omega
  · simp only [AscMap.get?_insert] at hget
    split at hget
    · rename_i heq
      exact heq ▸ Nat.lt_succ_self _
    · exact Nat.lt_succ_of_lt (h.below tag a hget)
  · exact Option.some_ne_none _
  · exact hstands.congr (fun hphase => absurd hrunning hphase) rfl rfl

/-- **A submission is counted**, whether or not it is taken. -/
theorem Balanced.submits {a a' : Allocator} (h : Balanced set { g with pending := some txn })
    (hopen : g.blocked = false) (hrunning : g.phase = .running) (hsubmits : g.Submits txn a g' a') :
    g'.Balanced set := by
  have hissued : g.nextTag = g.stats.issued + 1 := h.issued
  have hrejects : g.stats.rejects = g.stats.retries + g.blocked.toNat := h.rejects
  rw [hopen] at hrejects
  have hphase : ({ g with pending := some txn } : Generator).phase ≠ .running →
    none = some txn :=
    fun hphase => absurd hrunning hphase
  cases hsubmits with
  | taken =>
    refine ⟨hissued, h.completed, h.below, ?_, fun hblocked => ?_,
      h.stands.congr (fun _ => rfl) rfl rfl⟩
    · rw [show (count { g with pending := none } fun c =>
        { c with issued := c.issued + 1 }).blocked = _
        from hopen]
      exact hrejects
    · cases hopen.symm.trans hblocked
  -- the refusal is counted, and the generator is blocked until its retry
  | refused =>
    refine ⟨hissued, h.completed, h.below, ?_, fun _ => Option.some_ne_none _,
      h.stands.congr (fun hphase => absurd hrunning hphase) rfl rfl⟩
    show g.stats.rejects + 1 = g.stats.retries + 1
    rw [hrejects]
    rfl

/-- **Its part of a cycle keeps the balance of a generator.** -/
theorem Balanced.moves {offer : Option (Bool × Transaction)} {a a' : Allocator}
    (h : g.Balanced set) (hmoves : Moves set g a offer g' a') : g'.Balanced set := by
  cases hmoves with
  | waits => exact h
  | ends hrunning hnone =>
    cases h.stands with
    | accesses _ hp => cases hp.symm.trans hnone
    | increments _ hp => cases hp.symm.trans hnone
    | waits hbarrier => cases hbarrier.symm.trans hrunning
    | done hdone => cases hdone.symm.trans hrunning
  | finishes hrunning hpending hall hempty =>
    have hnil := List.isEmpty_iff.mp hempty
    refine { h with stands := ?_ }
    cases h.stands with
    | waits hbarrier => cases hbarrier.symm.trans hrunning
    | done hdone => cases hdone.symm.trans hrunning
    | accesses _ hp hother hreq hvalue _ hsuccesses hmade =>
      have hincrements := PatternSet.increments_succ hp
      have haccesses := PatternSet.accesses_succ hp
      rw [hother, if_neg Bool.false_ne_true] at hincrements haccesses
      refine .waits rfl hpending hnil hvalue (hsuccesses.trans hincrements.symm) ?_
      show g.nextTag = set.accesses (g.pattern + 1) + 2 * g.attempts
      omega
    | @increments _ n _ hp hatomic hstage hreq hunder hsuccesses hmade =>
      have hincrements := PatternSet.increments_succ hp
      have haccesses := PatternSet.accesses_succ hp
      rw [hatomic, if_pos rfl] at hincrements haccesses
      -- an increment that is under way would have to be finished first
      have hzero : n = 0 := by
        by_contra hne
        have hlt := hunder (Nat.pos_of_ne_zero hne)
        omega
      have hvalue : g.scValue = none := by
        subst hzero
        cases hstage with
        | fresh _ hvalue => exact hvalue
      refine .waits rfl hpending hnil hvalue ?_ ?_
      · show g.stats.scSuccesses = set.increments (g.pattern + 1)
        omega
      · show g.nextTag = set.accesses (g.pattern + 1) + 2 * g.attempts
        omega
  | @repeats txn _ _ hrunning hopen hpending hsubmits =>
    have hsame : Balanced set { g with pending := some txn } := by
      rw [← hpending]
      exact h
    exact hsame.submits hopen hrunning hsubmits
  | makes hrunning hopen hpending hp hreq hmakes hsubmits =>
    have hmade := h.makes hrunning hpending hp hreq hmakes
    obtain ⟨-, awaited, reqIndex, shadow, scValue, rfl⟩ := hmakes.frame
    exact hmade.submits hopen hrunning hsubmits

/-- A cycle begins. -/
theorem Balanced.begin (h : g.Balanced set) (now : Nat) : Balanced set { g with now } :=
  { h with stands := h.stands.congr h.stands.pending_eq rfl rfl }

/-! ### What comes back -/

/-- A report of something wrong is kept. -/
theorem reporting_fault_ne (g : Generator) (f : GeneratorFault) :
    (g.reporting f).fault ≠ none := by
  unfold reporting
  cases g.fault <;> nofun

/-- The one access that is awaited comes back. -/
theorem Awaits.of_get? {e : Expectation} {tag : Nat} {awaited : Awaited} (h : g.Awaits e)
    (hget : g.inflight.get? tag = some awaited) :
    awaited.expectation = e ∧ (g.inflight.erase tag).entries = [] := by
  obtain ⟨tag', awaited', hentries, he⟩ := h
  obtain ⟨rfl, rfl⟩ := AscMap.eq_of_entries_singleton hentries hget
  exact ⟨he, AscMap.entries_erase_of_cons hentries⟩

/-- What is known of an increment by the access of it that comes back. -/
theorem Increments.of_get? {n tag : Nat} {awaited : Awaited} (h : g.Increments n)
    (hget : g.inflight.get? tag = some awaited) :
    (g.inflight.erase tag).entries = [] ∧ g.scValue = none ∧ 0 < n ∧
      (awaited.expectation = .counterValue ∧ n = 1 ∨ awaited.expectation = .incrementOutcome ∧
        n = 2) := by
  cases h with
  | fresh hempty =>
    exact absurd hempty (AscMap.entries_ne_nil hget)
  | loading hone hvalue =>
    obtain ⟨he, hnil⟩ := hone.of_get? hget
    exact ⟨hnil, hvalue, Nat.one_pos, Or.inl ⟨he, rfl⟩⟩
  | loaded hempty =>
    exact absurd hempty (AscMap.entries_ne_nil hget)
  | storing hone hvalue =>
    obtain ⟨he, hnil⟩ := hone.of_get? hget
    exact ⟨hnil, hvalue, Nat.two_pos, Or.inr ⟨he, rfl⟩⟩

/-- The outcome of a store-conditional is awaited by a generator that makes an
increment, and it is all that this generator awaits. -/
theorem Stands.storing_of_get? {tag : Nat} {awaited : Awaited} (h : g.Stands set)
    (hget : g.inflight.get? tag = some awaited)
    (houtcome : awaited.expectation = .incrementOutcome) :
    ∃ p, g.phase = .running ∧ set.patterns[g.pattern]? = some p ∧ p.isAtomic = true ∧
      (g.inflight.erase tag).entries = [] ∧ g.scValue = none ∧
      g.reqIndex < set.reqsPerPattern ∧
      g.stats.scSuccesses = set.increments g.pattern + g.reqIndex ∧
      g.nextTag = set.accesses g.pattern + 2 * g.attempts + 2 := by
  cases h with
  | waits _ _ hempty => exact absurd hempty (AscMap.entries_ne_nil hget)
  | done _ _ hempty => exact absurd hempty (AscMap.entries_ne_nil hget)
  | accesses _ _ _ _ _ hplain => exact absurd houtcome (hplain _ _ hget).2
  | increments hrunning hp hatomic hstage _ hunder hsuccesses hmade =>
    obtain ⟨hnil, hvalue, hpos, ⟨he, -⟩ | ⟨-, rfl⟩⟩ := hstage.of_get? hget
    · cases houtcome.symm.trans he
    · exact ⟨_, hrunning, hp, hatomic, hnil, hvalue, hunder hpos, hsuccesses, hmade⟩

/-- A completion that is found right moves an increment on. -/
theorem Stands.receives {r : Response} (h : g.Stands set) (hreceives : g.Receives r g')
    (hclean : g'.fault = none) : g'.Stands set := by
  cases hreceives with
  | stray => exact absurd hclean (reporting_fault_ne _ _)
  | wrong => exact absurd hclean (reporting_fault_ne _ _)
  | accessed hget hexpectation =>
    cases h with
    | waits _ _ hempty => exact absurd hempty (AscMap.entries_ne_nil hget)
    | done _ _ hempty => exact absurd hempty (AscMap.entries_ne_nil hget)
    | accesses hrunning hp hother hreq hvalue hplain hsuccesses hmade =>
      refine .accesses hrunning hp hother hreq hvalue (fun tag a ha => ?_) hsuccesses hmade
      have ha : (g.inflight.erase r.tag).get? tag = some a := ha
      rw [AscMap.get?_erase] at ha
      split at ha
      · cases ha
      · exact hplain tag a ha
    | increments _ _ _ hstage =>
      obtain ⟨-, -, -, ⟨he, -⟩ | ⟨he, -⟩⟩ := hstage.of_get? hget
      · exact absurd he hexpectation.1
      · exact absurd he hexpectation.2
  | loaded hget hexpectation =>
    cases h with
    | waits _ _ hempty => exact absurd hempty (AscMap.entries_ne_nil hget)
    | done _ _ hempty => exact absurd hempty (AscMap.entries_ne_nil hget)
    | accesses _ _ _ _ _ hplain => exact absurd hexpectation (hplain _ _ hget).1
    | increments hrunning hp hatomic hstage hreq hunder hsuccesses hmade =>
      obtain ⟨hnil, -, hpos, ⟨-, rfl⟩ | ⟨he, -⟩⟩ := hstage.of_get? hget
      · exact .increments hrunning hp hatomic (.loaded hnil rfl) hreq hunder hsuccesses hmade
      · cases hexpectation.symm.trans he
  -- the one answer that completes an increment
  | incremented hget hexpectation hsuccess =>
    obtain ⟨p, hrunning, hp, hatomic, hnil, hvalue, hreq, hsuccesses, hmade⟩ :=
      h.storing_of_get? hget hexpectation
    refine .increments hrunning hp hatomic (.fresh hnil hvalue) hreq (fun h0 => ?_)
      (congrArg (· + 1) hsuccesses) ?_
    · exact absurd h0 (Nat.lt_irrefl 0)
    · unfold attempts at hmade ⊢
      show g.nextTag = set.accesses g.pattern +
        2 * (g.stats.scSuccesses + 1 + g.stats.scFailures) + 0
      omega
  -- both accesses are made again, and counted as one more attempt
  | failed hget hexpectation hfailure =>
    obtain ⟨p, hrunning, hp, hatomic, hnil, hvalue, hreq, hsuccesses, hmade⟩ :=
      h.storing_of_get? hget hexpectation
    refine .increments hrunning hp hatomic (.fresh hnil hvalue) (Nat.le_of_lt hreq)
      (fun h0 => ?_) hsuccesses ?_
    · exact absurd h0 (Nat.lt_irrefl 0)
    · unfold attempts at hmade ⊢
      show g.nextTag = set.accesses g.pattern +
        2 * (g.stats.scSuccesses + (g.stats.scFailures + 1)) + 0
      omega

/-- What is counted of a completion that is found right. -/
theorem Receives.counts {r : Response} (h : g.Receives r g') (hclean : g'.fault = none) :
    (∃ awaited, g.inflight.get? r.tag = some awaited) ∧
      g'.stats.completed = g.stats.completed + 1 ∧ g'.stats.issued = g.stats.issued ∧
      g'.stats.rejects = g.stats.rejects ∧ g'.stats.retries = g.stats.retries := by
  cases h with
  | stray => exact absurd hclean (reporting_fault_ne _ _)
  | wrong => exact absurd hclean (reporting_fault_ne _ _)
  | accessed hget => exact ⟨⟨_, hget⟩, rfl, rfl, rfl, rfl⟩
  | loaded hget => exact ⟨⟨_, hget⟩, rfl, rfl, rfl, rfl⟩
  | incremented hget => exact ⟨⟨_, hget⟩, rfl, rfl, rfl, rfl⟩
  | failed hget => exact ⟨⟨_, hget⟩, rfl, rfl, rfl, rfl⟩

/-- **A completion that is found right keeps the balance of a generator.** -/
theorem Balanced.receives {r : Response} (h : g.Balanced set) (hreceives : g.Receives r g')
    (hclean : g'.fault = none) : g'.Balanced set := by
  have hstands := h.stands.receives hreceives hclean
  obtain ⟨⟨awaited, hget⟩, hcompleted', hissued', hrejects', hretries'⟩ :=
    hreceives.counts hclean
  obtain ⟨reqIndex, scValue, fault, stats, rfl⟩ := hreceives.frame
  have hsize := AscMap.size_erase hget
  have hcompleted := h.completed
  refine ⟨?_, ?_, fun tag a ha => ?_, ?_, h.blocked, hstands⟩
  · exact h.issued.trans (congrArg (· + g.pending.toList.length) hissued'.symm)
  · show g.nextTag = stats.completed + (g.inflight.erase r.tag).size
    have hcompleted' : stats.completed = g.stats.completed + 1 := hcompleted'
    omega
  · simp only [AscMap.get?_erase] at ha
    split at ha
    · cases ha
    · exact h.below tag a ha
  · refine hrejects'.trans (h.rejects.trans ?_)
    exact congrArg (· + g.blocked.toNat) hretries'.symm

/-- **Leaves and snoops keep the balance of a generator.** -/
theorem Balanced.told (h : g.Balanced set) (htold : g.Told g') : g'.Balanced set := by
  have hphase := h.stands.pending_eq
  cases htold with
  | retried hblocked =>
    have hrejects := h.rejects
    rw [hblocked] at hrejects
    exact ⟨h.issued, h.completed, h.below, hrejects, nofun, h.stands.congr hphase rfl rfl⟩
  | unasked => exact { h with stands := h.stands.congr hphase rfl rfl }
  | snooped => exact { h with stands := h.stands.congr hphase rfl rfl }
  | trespassed => exact { h with stands := h.stands.congr hphase rfl rfl }

/-- A pattern begins. -/
theorem Stands.of_begun {p : Pattern} (hrunning : g.phase = .running)
    (hp : set.patterns[g.pattern]? = some p) (hreq : g.reqIndex = 0)
    (hempty : g.inflight.entries = [])
    (hvalue : g.scValue = none) (hsuccesses : g.stats.scSuccesses = set.increments g.pattern)
    (hmade : g.nextTag = set.accesses g.pattern + 2 * g.attempts) : g.Stands set := by
  have hle : g.reqIndex ≤ set.reqsPerPattern := hreq ▸ Nat.zero_le _
  cases hatomic : p.isAtomic with
  | true =>
    refine .increments hrunning hp hatomic (.fresh hempty hvalue) hle (fun h0 => ?_) ?_ hmade
    · exact absurd h0 (Nat.lt_irrefl 0)
    · rw [hreq]
      exact hsuccesses
  | false =>
    refine .accesses hrunning hp hatomic hle hvalue (fun tag awaited hget => ?_) hsuccesses ?_
    · exact absurd hempty (AscMap.entries_ne_nil hget)
    · rw [hreq]
      exact hmade

/-- **A barrier keeps the balance of a generator.** -/
theorem Balanced.passed (h : g.Balanced set) : (g.passed set).Balanced set := by
  unfold Generator.passed
  split
  · rename_i hbarrier
    have hbarrier : g.phase = .atBarrier := beq_iff_eq.mp hbarrier
    -- only a generator at the barrier passes it
    cases h.stands with
    | accesses hrunning => cases hrunning.symm.trans hbarrier
    | increments hrunning => cases hrunning.symm.trans hbarrier
    | done hdone => cases hdone.symm.trans hbarrier
    | waits _ hpending hempty hvalue hsuccesses hmade =>
      unfold advance
      simp only
      split
      · rename_i hle
        exact ⟨h.issued, h.completed, h.below, h.rejects, h.blocked,
          .done rfl hpending hempty hle hsuccesses hmade⟩
      · rename_i hgt
        have hp := List.getElem?_eq_getElem (Nat.lt_of_not_le hgt)
        exact ⟨h.issued, h.completed, h.below, h.rejects, h.blocked,
          .of_begun rfl hp rfl hempty hvalue hsuccesses hmade⟩
  · exact h

/-- A new generator has made nothing. -/
theorem Balanced.of_new {config : TrafficConfig} (port ports : Nat) :
    Balanced set (.new port ports config set) := by
  refine ⟨rfl, rfl, nofun, rfl, nofun, ?_⟩
  have hnone : set.increments 0 = 0 ∧ set.accesses 0 = 0 := ⟨Nat.mul_zero _, Nat.mul_zero _⟩
  -- without patterns a generator is done from the start
  cases hpatterns : set.patterns with
  | nil =>
    refine .done ?_ rfl rfl ?_ hnone.1.symm ?_
    · unfold Generator.new
      rw [hpatterns]
      rfl
    · unfold PatternSet.length
      rw [hpatterns]
      exact Nat.le_refl 0
    · exact congrArg (· + 2 * 0) hnone.2.symm
  | cons p rest =>
    refine .of_begun (p := p) ?_ ?_ rfl rfl rfl hnone.1.symm ?_
    · unfold Generator.new
      rw [hpatterns]
      rfl
    · rw [hpatterns]
      rfl
    · exact congrArg (· + 2 * 0) hnone.2.symm

/-- **What a generator has counted that has finished all patterns.** -/
theorem Balanced.of_isDone (h : g.Balanced set) (hdone : g.isDone = true) :
    g.stats.scSuccesses = set.reqsPerPattern * set.patterns.countP (·.isAtomic) ∧
      g.stats.issued = set.reqsPerPattern * set.patterns.countP (!·.isAtomic) +
        2 * (g.stats.scSuccesses + g.stats.scFailures) ∧
      g.stats.completed = g.stats.issued ∧ g.stats.retries = g.stats.rejects := by
  have hdone : g.phase = .done := beq_iff_eq.mp hdone
  cases h.stands with
  | accesses hrunning => cases hrunning.symm.trans hdone
  | increments hrunning => cases hrunning.symm.trans hdone
  | waits hbarrier => cases hbarrier.symm.trans hdone
  | done _ hpending hempty hlast hsuccesses hmade =>
    have hissued := h.issued
    have hcompleted := h.completed
    have hrejects := h.rejects
    rw [hpending] at hissued
    unfold AscMap.size at hcompleted
    rw [hempty] at hcompleted
    -- a generator that is done has nothing to retry
    have hopen : g.blocked = false := by
      cases hblocked : g.blocked with
      | false => rfl
      | true => exact absurd hpending (h.blocked hblocked)
    rw [hopen] at hrejects
    unfold PatternSet.increments at hsuccesses
    unfold PatternSet.accesses attempts at hmade
    rw [List.take_of_length_le hlast] at hsuccesses hmade
    simp only [Option.toList_none, List.length_nil, Bool.toNat_false] at hissued hcompleted hrejects
    refine ⟨hsuccesses, ?_, ?_, ?_⟩
    · exact hissued.symm.trans hmade
    · exact hcompleted.symm.trans hissued
    · exact hrejects.symm

end Generator

end MemPort
