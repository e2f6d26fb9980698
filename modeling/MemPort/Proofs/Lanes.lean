import MemPort.Proofs.Balances

/-!
# What all generators have counted

The counters of all generators together change only where something is submitted
or completed.  Every transaction that a port has accepted was made by its
generator; if it is a store-conditional, the generator expects of it the outcome
of an increment.  So a completion that tells of a store-conditional without
effect is counted as just that.

## Main definitions

* `Generator.Recalls` — a generator has made a transaction and knows what to
  expect of it.
* `Steady` — what is known of all generators, with the transactions that were
  accepted.

## Main results

* `Steady.moves`, `Steady.hears`, `Steady.takes`, `Steady.passes` — the pieces
  of a cycle keep it.
* `Takes.failures` — the generators count the store-conditionals without
  effect that they are told of.

## References

`SPEC_FULL.md`, section 10.7: the synthetic requestors, one per port.
-/

namespace MemPort

/-! ### Nothing that was found wrong is forgotten -/

/-- No generator has found anything wrong. -/
def Faultless (lanes : List Generator) : Prop := ∀ g ∈ lanes, g.fault = none

namespace Generator

variable {set : PatternSet} {g g' : Generator} {txn : Transaction}

theorem fault_of_reporting {f : GeneratorFault} (h : (g.reporting f).fault = none) :
    g.fault = none :=
  absurd h (reporting_fault_ne g f)

theorem Told.fault_eq_none (h : g.Told g') (hclean : g'.fault = none) : g.fault = none := by
  cases h with
  | retried => exact hclean
  | unasked => exact fault_of_reporting hclean
  | snooped => exact hclean
  | trespassed => exact fault_of_reporting hclean

theorem Receives.fault_eq_none {r : Response} (h : g.Receives r g') (hclean : g'.fault = none) :
    g.fault = none := by
  cases h with
  | stray => exact fault_of_reporting hclean
  | wrong => exact fault_of_reporting hclean
  | accessed => exact hclean
  | loaded => exact hclean
  | incremented => exact hclean
  | failed => exact hclean

end Generator

theorem Faultless.of_set {lanes : List Generator} {port : Nat} {g g' : Generator}
    (hg : lanes[port]? = some g) (hfault : g'.fault = none → g.fault = none)
    (h : Faultless (lanes.set port g')) : Faultless lanes ∧ g'.fault = none := by
  have hlt := (List.getElem?_eq_some_iff.mp hg).1
  have hself : g'.fault = none := h g' (List.mem_set hlt g')
  refine ⟨fun x hx => ?_, hself⟩
  obtain ⟨q, hq⟩ := List.getElem?_of_mem hx
  by_cases heq : port = q
  · subst heq
    cases hg.symm.trans hq
    exact hfault hself
  · refine h x (List.mem_of_getElem? (i := q) ?_)
    rw [List.getElem?_set_ne heq]
    exact hq

theorem Hears.faultless {lanes lanes' : List Generator} (h : Hears lanes lanes')
    (hclean : Faultless lanes') : Faultless lanes := by
  induction h with
  | refl => exact hclean
  | told _ hg htold ih => exact ih (Faultless.of_set hg htold.fault_eq_none hclean).1

theorem Takes.faultless {lanes lanes' : List Generator} {cs : List (Nat × Response)}
    (h : Takes lanes cs lanes') (hclean : Faultless lanes') : Faultless lanes := by
  induction h with
  | nil => exact hclean
  | cons hg hreceives _ ih => exact (Faultless.of_set hg hreceives.fault_eq_none (ih hclean)).1

/-! ### Sums over all generators -/

/-- One generator goes on, and the sum changes by the difference. -/
theorem total_map_lanes {lanes : List Generator} {port : Nat} {g g' : Generator}
    (hg : lanes[port]? = some g) (f : Generator → Nat) {k : Nat} (hf : f g' = f g + k) :
    total ((lanes.set port g').map f) = total (lanes.map f) + k := by
  have hmap : (lanes.map f)[port]? = some (f g) := by rw [List.getElem?_map, hg, Option.map_some]
  have hset := total_set hmap (x := f g')
  rw [List.map_set]
  omega

/-- What no leave and no snoop changes. -/
theorem Hears.map_eq {α : Type} {lanes lanes' : List Generator} {f : Generator → α}
    (hf : ∀ g g', g.Told g' → f g' = f g) (h : Hears lanes lanes') :
    lanes'.map f = lanes.map f := by
  induction h with
  | refl => rfl
  | told _ hg htold ih => exact (map_set_of_eq hg (hf _ _ htold)).trans ih

/-- What no completion changes. -/
theorem Takes.map_eq {α : Type} {lanes lanes' : List Generator} {cs : List (Nat × Response)}
    {f : Generator → α} (hf : ∀ g r g', g.Receives r g' → f g' = f g)
    (h : Takes lanes cs lanes') :
    lanes'.map f = lanes.map f := by
  induction h with
  | nil => rfl
  | cons hg hreceives _ ih => exact ih.trans (map_set_of_eq hg (hf _ _ _ hreceives))

/-! ### What a generator recalls -/

namespace Generator

variable {set : PatternSet} {g g' : Generator} {p : Pattern} {txn : Transaction} {tag : Nat}

/-- Whatever is awaited under a tag is awaited with an expectation. -/
def Expects (g : Generator) (tag : Nat) (e : Expectation) : Prop :=
  ∀ awaited, g.inflight.get? tag = some awaited → awaited.expectation = e

/-- A generator has made a transaction; of a store-conditional it expects the
outcome of an increment. -/
structure Recalls (g : Generator) (txn : Transaction) : Prop where
  /-- The tag is not one that is still to come. -/
  lt : txn.tag < g.nextTag
  /-- A store-conditional increments the counter. -/
  expects : txn.cmd = .storeCond → g.Expects txn.tag .incrementOutcome

theorem Recalls.congr (h : g.Recalls txn) (htag : g'.nextTag = g.nextTag)
    (hinflight : g'.inflight = g.inflight) : g'.Recalls txn := by
  refine ⟨htag ▸ h.lt, fun hcmd => ?_⟩
  unfold Expects
  rw [hinflight]
  exact h.expects hcmd

/-- A completion changes nothing about what is still awaited. -/
theorem Receives.expects {r : Response} {e : Expectation} (hreceives : g.Receives r g')
    (h : g.Expects tag e) : g'.Expects tag e := by
  obtain ⟨_, _, _, _, rfl⟩ := hreceives.frame
  intro awaited hget
  simp only [AscMap.get?_erase] at hget
  split at hget
  · cases hget
  · exact h awaited hget

theorem Recalls.receives {r : Response} (h : g.Recalls txn) (hreceives : g.Receives r g') :
    g'.Recalls txn := by
  refine ⟨?_, fun hcmd => hreceives.expects (h.expects hcmd)⟩
  obtain ⟨_, _, _, _, rfl⟩ := hreceives.frame
  exact h.lt

theorem Recalls.told (h : g.Recalls txn) (htold : g.Told g') : g'.Recalls txn := by
  obtain ⟨_, _, _, rfl⟩ := htold.frame
  exact h.congr rfl rfl

theorem Recalls.passed (h : g.Recalls txn) : (g.passed set).Recalls txn := by
  obtain ⟨_, _, _, _, hpassed⟩ := g.passed_frame set
  rw [hpassed]
  exact h.congr rfl rfl

/-- The next access has a tag of its own. -/
theorem Recalls.makes {t : Transaction} (h : g.Recalls txn) (hmakes : g.Makes p t g') :
    g'.Recalls txn := by
  obtain ⟨-, _, _, _, _, rfl⟩ := hmakes.frame
  refine ⟨Nat.lt_succ_of_lt h.lt, fun hcmd awaited hget => ?_⟩
  simp only [AscMap.get?_insert] at hget
  rw [if_neg (Nat.ne_of_gt h.lt)] at hget
  exact h.expects hcmd awaited hget

/-- What is made is recalled. -/
theorem recalls_makes (hmakes : g.Makes p txn g') : g'.Recalls txn := by
  cases hmakes with
  | loads => exact ⟨Nat.lt_succ_self _, nofun⟩
  | stores =>
    refine ⟨Nat.lt_succ_self _, fun _ awaited hget => ?_⟩
    simp only [await, Transaction.store, AscMap.get?_insert, if_true] at hget
    cases hget
    rfl
  | @accesses t expectation shadow _ htag hlinked =>
    refine ⟨Nat.lt_succ_of_le (Nat.le_of_eq htag), fun hcmd => ?_⟩
    have hcmd : t.cmd = .storeCond := hcmd
    rw [hcmd] at hlinked
    cases hlinked

/-- What is counted of a submission. -/
def counted (g : Generator) (taken : Bool) : GeneratorCounters :=
  if taken then { g.stats with issued := g.stats.issued + 1 }
  else { g.stats with rejects := g.stats.rejects + 1 }

/-- What a generator does in its part of a cycle to the allocator, and what it
counts of that. -/
theorem Moves.cases_counted {offer : Option (Bool × Transaction)} {a a' : Allocator}
    (h : Moves set g a offer g' a') :
    (a' = a ∧ g'.stats = g.stats) ∨
      ∃ t l, a.submit g.now g.port t = .ok l ∧ a' = l.value.2 ∧
      g'.stats = g.counted l.value.1 ∧
        ((∀ t', g.pending = some t' → g.Recalls t') → g'.Recalls t) := by
  have hsubmits : ∀ {g₁ g' : Generator} {t : Transaction}, g₁.Submits t a g' a' → ∃ l,
      a.submit g₁.now g₁.port t = .ok l ∧ a' = l.value.2 ∧
      g'.stats = g₁.counted l.value.1 ∧
        (g₁.Recalls t → g'.Recalls t) := by
    intro g₁ g' t h
    cases h with
    | taken hsubmit htaken =>
      refine ⟨_, hsubmit, rfl, ?_, fun hrecalls => hrecalls.congr rfl rfl⟩
      rw [htaken]
      rfl
    | refused hsubmit htaken =>
      refine ⟨_, hsubmit, rfl, ?_, fun hrecalls => hrecalls.congr rfl rfl⟩
      rw [htaken]
      rfl
  cases h with
  | waits => exact Or.inl ⟨rfl, rfl⟩
  | ends => exact Or.inl ⟨rfl, rfl⟩
  | finishes => exact Or.inl ⟨rfl, rfl⟩
  | repeats _ _ hpending h =>
    obtain ⟨l, hsubmit, ha, hstats, hrecalls⟩ := hsubmits h
    exact Or.inr ⟨_, l, hsubmit, ha, hstats, fun hknown => hrecalls (hknown _ hpending)⟩
  | makes _ _ _ _ _ hmakes h =>
    obtain ⟨l, hsubmit, ha, hstats, hrecalls⟩ := hsubmits h
    have hmade := recalls_makes hmakes
    obtain ⟨-, _, _, _, _, rfl⟩ := hmakes.frame
    exact Or.inr ⟨_, l, hsubmit, ha, hstats, fun _ => hrecalls hmade⟩

/-- In its part of a cycle a generator keeps its port, recalls what it made, and
finds nothing wrong. -/
theorem Moves.keeps {offer : Option (Bool × Transaction)} {a a' : Allocator}
    (h : Moves set g a offer g' a') :
    g'.port = g.port ∧ g'.fault = g.fault ∧ (∀ t, g.Recalls t → g'.Recalls t) ∧
      ((∀ t, g.pending = some t → g.Recalls t) → ∀ t, g'.pending = some t →
        g'.Recalls t) := by
  have hsubmits : ∀ {g₁ g' : Generator} {t : Transaction}, g₁.Submits t a g' a' →
      g'.port = g₁.port ∧ g'.fault = g₁.fault ∧
      (∀ t', g₁.Recalls t' → g'.Recalls t') ∧
        (g₁.Recalls t → ∀ t', g'.pending = some t' → g'.Recalls t') := by
    intro g₁ g' t h
    cases h with
    | taken => exact ⟨rfl, rfl, fun _ h => h.congr rfl rfl, nofun⟩
    | refused =>
      refine ⟨rfl, rfl, fun _ h => h.congr rfl rfl, fun hrecalls t' ht' => ?_⟩
      cases ht'
      exact hrecalls.congr rfl rfl
  cases h with
  | waits => exact ⟨rfl, rfl, fun _ h => h, fun h => h⟩
  | ends => exact ⟨rfl, rfl, fun _ h => h.congr rfl rfl, fun h t ht => (h t ht).congr rfl rfl⟩
  | finishes =>
    exact ⟨rfl, rfl, fun _ h => h.congr rfl rfl, fun h t ht => (h t ht).congr rfl rfl⟩
  | repeats _ _ hpending h =>
    obtain ⟨hport, hfault, hrecalls, hpending'⟩ := hsubmits h
    exact ⟨hport, hfault, hrecalls, fun hknown => hpending' (hknown _ hpending)⟩
  | makes _ _ _ _ _ hmakes h =>
    obtain ⟨hport, hfault, hrecalls, hpending'⟩ := hsubmits h
    have hframe := hmakes.frame
    refine ⟨?_, ?_, fun t ht => hrecalls t (ht.makes hmakes),
      fun _ => hpending' (recalls_makes hmakes)⟩
    · obtain ⟨-, _, _, _, _, rfl⟩ := hframe
      exact hport
    · obtain ⟨-, _, _, _, _, rfl⟩ := hframe
      exact hfault

end Generator

/-! ### All generators -/

/-- What is known of the generator of a port. -/
structure Generator.Orderly (set : PatternSet) (port : Nat) (g : Generator) : Prop where
  /-- It knows its port. -/
  port_eq : g.port = port
  /-- Its counters tell what it has made. -/
  balanced : g.Balanced set
  /-- It has made what waits to be taken. -/
  pending : ∀ t, g.pending = some t → g.Recalls t

/-- What is known of all generators, with the transactions that were accepted. -/
structure Steady (set : PatternSet) (os : List Origin) (lanes : List Generator) : Prop where
  /-- Every generator is in order. -/
  lane : ∀ (port : Nat) (g : Generator), lanes[port]? = some g → g.Orderly set port
  /-- What was accepted was made by the generator of its port. -/
  known : ∀ o ∈ os, ∃ g, lanes[o.port]? = some g ∧ g.Recalls o.txn

namespace Steady

variable {set : PatternSet} {os : List Origin} {lanes lanes' : List Generator} {port : Nat}
  {g g' : Generator}

/-- One generator goes on. -/
theorem replaced (h : Steady set os lanes) (hg : lanes[port]? = some g)
    (horderly : g'.Orderly set port)
    (hrecalls : ∀ t, g.Recalls t → g'.Recalls t) : Steady set os (lanes.set port g') := by
  have hlt := (List.getElem?_eq_some_iff.mp hg).1
  refine ⟨fun q x hq => ?_, fun o ho => ?_⟩
  · by_cases heq : port = q
    · subst heq
      rw [List.getElem?_set_self hlt] at hq
      cases hq
      exact horderly
    · rw [List.getElem?_set_ne heq] at hq
      exact h.lane q x hq
  · obtain ⟨x, hx, hknown⟩ := h.known o ho
    by_cases heq : port = o.port
    · rw [← heq, hg] at hx
      cases hx
      refine ⟨g', ?_, hrecalls _ hknown⟩
      rw [← heq, List.getElem?_set_self hlt]
    · refine ⟨x, ?_, hknown⟩
      rw [List.getElem?_set_ne heq]
      exact hx

/-- One more transaction is accepted. -/
theorem accepts (h : Steady set os lanes) {txn : Transaction} (hg : lanes[port]? = some g)
    (hrecalls : g.Recalls txn) : Steady set (os ++ [⟨port, txn⟩]) lanes := by
  refine ⟨h.lane, fun o ho => ?_⟩
  rcases List.mem_append.mp ho with ho | ho
  · exact h.known o ho
  · cases List.mem_singleton.mp ho
    exact ⟨g, hg, hrecalls⟩

/-- **A generator has its part of a cycle.** -/
theorem moves {now : Nat} {offer : Option (Bool × Transaction)} {a a' : Allocator}
    (h : Steady set os lanes) (hg : lanes[port]? = some g)
    (hmoves : Generator.Moves set { g with now } a offer g' a') :
    Steady set os (lanes.set port g') := by
  have horderly := h.lane port g hg
  obtain ⟨hport, -, hrecalls, hpending⟩ := hmoves.keeps
  refine h.replaced hg
    ⟨hport.trans horderly.port_eq, (horderly.balanced.begin now).moves hmoves, ?_⟩
    fun t ht => hrecalls t (ht.congr rfl rfl)
  exact hpending fun t ht => (horderly.pending t ht).congr rfl rfl

/-- **Generators are told of leaves and snoops.** -/
theorem hears (h : Steady set os lanes) (hhears : Hears lanes lanes') : Steady set os lanes' := by
  induction hhears with
  | refl => exact h
  | told _ hg htold ih =>
    have horderly := ih.lane _ _ hg
    refine ih.replaced hg ⟨?_, horderly.balanced.told htold, fun t ht => ?_⟩ fun t ht =>
      ht.told htold
    · obtain ⟨_, _, _, rfl⟩ := htold.frame
      exact horderly.port_eq
    · refine (horderly.pending t ?_).told htold
      obtain ⟨_, _, _, rfl⟩ := htold.frame
      exact ht

/-- **Completions are handed out** that are found right. -/
theorem takes {cs : List (Nat × Response)} (h : Steady set os lanes)
    (htakes : Takes lanes cs lanes') (hclean : Faultless lanes') : Steady set os lanes' := by
  induction htakes with
  | nil => exact h
  | cons hg hreceives hrest ih =>
    have horderly := h.lane _ _ hg
    have hfault := (Faultless.of_set hg hreceives.fault_eq_none (hrest.faultless hclean)).2
    refine ih (h.replaced hg ⟨?_, horderly.balanced.receives hreceives hfault, fun t ht => ?_⟩
      fun t ht => ht.receives hreceives) hclean
    · obtain ⟨_, _, _, _, rfl⟩ := hreceives.frame
      exact horderly.port_eq
    · refine (horderly.pending t ?_).receives hreceives
      obtain ⟨_, _, _, _, rfl⟩ := hreceives.frame
      exact ht

/-- **Generators pass a barrier.** -/
theorem passes (h : Steady set os lanes) : Steady set os (lanes.map (·.passed set)) := by
  refine ⟨fun port x hx => ?_, fun o ho => ?_⟩
  · rw [List.getElem?_map] at hx
    obtain ⟨g, hg, rfl⟩ := Option.map_eq_some_iff.mp hx
    have horderly := h.lane port g hg
    obtain ⟨hport, hpending⟩ : (g.passed set).port = g.port ∧
        (g.passed set).pending = g.pending := by
      obtain ⟨_, _, _, _, hpassed⟩ := g.passed_frame set
      rw [hpassed]
      exact ⟨rfl, rfl⟩
    refine ⟨hport.trans horderly.port_eq, horderly.balanced.passed, fun t ht => ?_⟩
    exact (horderly.pending t (hpending ▸ ht)).passed
  · obtain ⟨g, hg, hknown⟩ := h.known o ho
    refine ⟨g.passed set, ?_, hknown.passed⟩
    rw [List.getElem?_map, hg, Option.map_some]

/-- New generators have made nothing. -/
theorem of_new {config : TrafficConfig} {ports : Nat} :
    Steady set [] ((List.range ports).map fun port => .new port ports config set) where
  lane port g hg := by
    rw [List.getElem?_map] at hg
    obtain ⟨q, hq, rfl⟩ := Option.map_eq_some_iff.mp hg
    obtain ⟨hlt, rfl⟩ := List.getElem?_eq_some_iff.mp hq
    exact ⟨List.getElem_range hlt, .of_new _ _, nofun⟩
  known := nofun

end Steady

/-! ### Store-conditionals without effect -/

/-- **The generators count the store-conditionals without effect that they are
told of.** -/
theorem Takes.failures {lanes lanes' : List Generator} {cs : List (Nat × Response)}
    (h : Takes lanes cs lanes') (hclean : Faultless lanes')
    (hexpects : ∀ c ∈ cs, c.2.success = false → ∃ g, lanes[c.1]? = some g ∧
      g.Expects c.2.tag .incrementOutcome) :
    total (lanes'.map (·.stats.scFailures)) =
      total (lanes.map (·.stats.scFailures)) + cs.countP (!·.2.success) := by
  induction h with
  | nil => rfl
  | @cons lanes lanes' port r rest g g' hg hreceives hrest ih =>
    have hlt := (List.getElem?_eq_some_iff.mp hg).1
    have hfault := (Faultless.of_set hg hreceives.fault_eq_none (hrest.faultless hclean)).2
    -- the first completion is counted by its generator
    have hone : g'.stats.scFailures = g.stats.scFailures + (!r.success).toNat := by
      have houtcome : r.success = false → g.Expects r.tag .incrementOutcome := by
        intro hfailure
        obtain ⟨x, hx, hexpect⟩ := hexpects (port, r) List.mem_cons_self hfailure
        cases hg.symm.trans hx
        exact hexpect
      cases hreceives with
      | stray => exact absurd hfault (Generator.reporting_fault_ne _ _)
      | wrong => exact absurd hfault (Generator.reporting_fault_ne _ _)
      | accessed hget hexpectation =>
        cases hsuccess : r.success with
        | true => rfl
        | false => exact absurd (houtcome hsuccess _ hget) hexpectation.2
      | loaded hget hexpectation =>
        cases hsuccess : r.success with
        | true => rfl
        | false => cases hexpectation.symm.trans (houtcome hsuccess _ hget)
      | incremented _ _ hsuccess =>
        rw [hsuccess]
        rfl
      | failed _ _ hfailure =>
        rw [hfailure]
        rfl
    have hrest := ih hclean fun c hc hfailure => by
      obtain ⟨x, hx, hexpect⟩ := hexpects c (List.mem_cons_of_mem _ hc) hfailure
      by_cases heq : port = c.1
      · rw [← heq, hg] at hx
        cases hx
        refine ⟨g', ?_, hreceives.expects hexpect⟩
        rw [← heq, List.getElem?_set_self hlt]
      · refine ⟨x, ?_, hexpect⟩
        rw [List.getElem?_set_ne heq]
        exact hx
    rw [hrest, total_map_lanes hg _ hone, List.countP_cons]
    cases r.success <;> simp only [Bool.not_true, Bool.not_false, Bool.toNat_true, Bool.toNat_false,
      Bool.false_eq_true, if_true, if_false] <;> omega

end MemPort
