import MemPort.Proofs.Exchanges
import MemPort.Proofs.SimulationVerdict

/-!
# Patterns in lockstep

In lockstep all generators work on the same pattern, and go on to the next
together, once all of them have finished.  A generator has finished a pattern
only if nothing of it is left: no access waits to be taken, and none is awaited.
So before the first access of a pattern is submitted, whatever was made for the
patterns before has been taken and completed, on every port.

## Main definitions

* `Happening.Over` — an access was taken and completed.
* `Staged` — accesses are submitted pattern by pattern.
* `Marches` — what is known of all generators, with what has happened.

## Main results

* `Marches.piece` — every piece of a cycle keeps it.
* `Simulation.lockstep_barrier` — at the end of every cycle all generators are
  at the same pattern, and no access is submitted before all those of earlier
  patterns are over.

## References

`SPEC_FULL.md`, section 10.7: patterns run in lockstep.
-/

namespace MemPort

/-- An access of a port was taken, and its completion was handed out. -/
def Over (hs : List Happening) (port : Nat) (txn : Transaction) : Prop :=
  .submitted port txn true ∈ hs ∧ ∃ r : Response, r.tag = txn.tag ∧ .completed port r ∈ hs

/-- What is submitted was made before, and by then all accesses of earlier
patterns were over. -/
def Staged (hs : List Happening) : Prop :=
  ∀ earlier later port txn taken, hs = earlier ++ .submitted port txn taken :: later →
    ∃ k, .made port k txn ∈ earlier ∧
      ∀ q j t, .made q j t ∈ hs → j < k → Over earlier q t

/-- The port of an access. -/
def Happening.port : Happening → Nat
  | made port _ _ | submitted port _ _ | completed port _ => port

/-- What is known of the generator of a port that works on a pattern. -/
structure Traced (set : PatternSet) (hs : List Happening) (port pattern : Nat)
    (g : Generator) : Prop where
  /-- It works on its port. -/
  port_eq : g.port = port
  /-- It works on the pattern. -/
  pattern_eq : g.pattern = pattern
  /-- It is done exactly if there is no such pattern. -/
  done_iff : g.phase = .done ↔ set.length ≤ pattern
  /-- If it does not work, nothing is left. -/
  rests : g.phase ≠ .running → g.pending = none ∧ ∀ tag, g.inflight.get? tag = none
  /-- What it made, it made for this pattern or an earlier one. -/
  made : ∀ k t, .made port k t ∈ hs → k ≤ pattern ∧ t.tag < g.nextTag
  /-- It was taken, or waits to be. -/
  taken : ∀ k t, .made port k t ∈ hs →
    .submitted port t true ∈ hs ∨ g.pending = some t ∧ k = pattern
  /-- It was completed, or is awaited. -/
  completed : ∀ k t, .made port k t ∈ hs →
    (∃ r : Response, r.tag = t.tag ∧ .completed port r ∈ hs) ∨
      g.inflight.get? t.tag ≠ none ∧ k = pattern
  /-- Every access has its own tag. -/
  unique : ∀ k k' t t', .made port k t ∈ hs → .made port k' t' ∈ hs → t.tag = t'.tag →
    k = k' ∧ t = t'
  /-- What waits to be taken was made for this pattern. -/
  pending : ∀ t, g.pending = some t → .made port pattern t ∈ hs

namespace Staged

variable {hs : List Happening}

/-- Nothing is submitted, and what is made is not made for a pattern that all
are past. -/
theorem append {new : List Happening} (h : Staged hs)
    (hnew : ∀ port txn taken, .submitted port txn taken ∉ new)
    (hmade : ∀ q j t, .made q j t ∈ new →
      ∀ port k txn, .made port k txn ∈ hs → k ≤ j) :
    Staged (hs ++ new) := by
  intro earlier later port txn taken hsplit
  rcases List.append_eq_append_iff.mp hsplit with ⟨a, rfl, hrest⟩ | ⟨a, hhs, hrest⟩
  · -- the submission would be new
    refine absurd ?_ (hnew port txn taken)
    rw [hrest]
    exact List.mem_append_right _ List.mem_cons_self
  · cases a with
    | nil =>
      refine absurd ?_ (hnew port txn taken)
      rw [List.nil_append] at hrest
      rw [← hrest]
      exact List.mem_cons_self
    | cons x a =>
      rw [List.cons_append] at hrest
      obtain ⟨rfl, -⟩ := List.cons.inj hrest
      obtain ⟨k, hk, hover⟩ := h earlier a port txn taken hhs
      refine ⟨k, hk, fun q j t ht hlt => ?_⟩
      rcases List.mem_append.mp ht with ht | ht
      · exact hover q j t ht hlt
      · have hle := hmade q j t ht port k txn (hhs ▸ List.mem_append_left _ hk)
        exact absurd hlt (Nat.not_lt.mpr hle)

/-- An access is submitted after all those of earlier patterns. -/
theorem submitted {port k : Nat} {txn : Transaction} (h : Staged hs) (taken : Bool)
    (hk : .made port k txn ∈ hs)
    (hover : ∀ q j t, .made q j t ∈ hs → j < k → Over hs q t) :
    Staged (hs ++ [.submitted port txn taken]) := by
  intro earlier later port' txn' taken' hsplit
  have hold : ∀ q j t, Happening.made q j t ∈ hs ++ [.submitted port txn taken] →
      .made q j t ∈ hs := by
    intro q j t ht
    rcases List.mem_append.mp ht with ht | ht
    · exact ht
    · cases List.mem_singleton.mp ht
  -- the submission looked at is the new one, or one of `hs`
  rcases List.append_eq_append_iff.mp hsplit with ⟨a, rfl, hrest⟩ | ⟨a, hhs, hrest⟩
  · cases a with
    | nil =>
      cases hrest
      rw [List.append_nil]
      exact ⟨k, hk, fun q j t ht => hover q j t (hold q j t ht)⟩
    | cons x a =>
      obtain ⟨-, hnil⟩ := List.cons.inj hrest
      cases a <;> cases hnil
  · cases a with
    | nil =>
      rw [List.append_nil] at hhs
      subst hhs
      cases hrest
      exact ⟨k, hk, fun q j t ht => hover q j t (hold q j t ht)⟩
    | cons x a =>
      rw [List.cons_append] at hrest
      obtain ⟨rfl, -⟩ := List.cons.inj hrest
      obtain ⟨k', hk', hover'⟩ := h earlier a port' txn' taken' hhs
      exact ⟨k', hk', fun q j t ht => hover' q j t (hold q j t ht)⟩

end Staged

namespace Traced

variable {set : PatternSet} {hs new : List Happening} {port pattern : Nat} {g g' : Generator}
  {txn : Transaction} {p : Pattern}

/-- More happens, but the generator makes nothing. -/
theorem more (h : Traced set hs port pattern g) (hnew : ∀ k t, .made port k t ∉ new) :
    Traced set (hs ++ new) port pattern g := by
  have hold : ∀ k t, Happening.made port k t ∈ hs ++ new → .made port k t ∈ hs :=
    fun k t ht =>
    (List.mem_append.mp ht).resolve_right (hnew k t)
  exact { h with
    made := fun k t ht => h.made k t (hold k t ht)
    taken := fun k t ht => (h.taken k t (hold k t ht)).imp_left (List.mem_append_left _)
    completed := fun k t ht => (h.completed k t (hold k t ht)).imp_left fun ⟨r, htag, hr⟩ =>
      ⟨r, htag, List.mem_append_left _ hr⟩
    unique := fun k k' t t' ht ht' => h.unique k k' t t' (hold k t ht) (hold k' t' ht')
    pending := fun t ht => List.mem_append_left _ (h.pending t ht) }

/-- The generator is told something. -/
theorem told (h : Traced set hs port pattern g) (htold : g.Told g') :
    Traced set hs port pattern g' := by
  obtain ⟨blocked, fault, stats, rfl⟩ := htold.frame
  exact { h with }

/-- A completion comes back. -/
theorem receives {r : Response} (h : Traced set hs port pattern g) (hreceives : g.Receives r g') :
    Traced set (hs ++ [.completed port r]) port pattern g' := by
  obtain ⟨reqIndex, scValue, fault, stats, rfl⟩ := hreceives.frame
  have hmore : Traced set (hs ++ [.completed port r]) port pattern g :=
    h.more fun k t ht => by cases List.mem_singleton.mp ht
  refine { hmore with
    rests := fun hphase => ⟨(h.rests hphase).1, fun tag => ?_⟩
    completed := fun k t ht => ?_ }
  · simp only [AscMap.get?_erase, (h.rests hphase).2, ite_self]
  · rcases hmore.completed k t ht with hdone | ⟨hget, hk⟩
    · exact Or.inl hdone
    · by_cases htag : r.tag = t.tag
      · exact Or.inl ⟨r, htag, List.mem_append_right _ (List.mem_singleton_self _)⟩
      · refine Or.inr ⟨?_, hk⟩
        simp only [AscMap.get?_erase, if_neg htag]
        exact hget

/-- An access is made, and waits to be taken. -/
theorem makes (h : Traced set hs port pattern g) (hrunning : g.phase = .running)
    (hpending : g.pending = none) (hmakes : g.Makes p txn g') :
    Traced set (hs ++ [.made port pattern txn]) port pattern { g' with pending := some txn } := by
  obtain ⟨htag, awaited, reqIndex, shadow, scValue, rfl⟩ := hmakes.frame
  -- the only transaction made anew is `txn`, whose tag no other has
  have hcases : ∀ {k t}, Happening.made port k t ∈ hs ++ [.made port pattern txn] →
      .made port k t ∈ hs ∨ k = pattern ∧ t = txn := by
    intro k t ht
    rcases List.mem_append.mp ht with ht | ht
    · exact Or.inl ht
    · cases List.mem_singleton.mp ht
      exact Or.inr ⟨rfl, rfl⟩
  have hnone : ∀ {t : Transaction}, g.pending ≠ some t := fun heq => by
    rw [hpending] at heq
    cases heq
  refine {
    port_eq := h.port_eq
    pattern_eq := h.pattern_eq
    done_iff := h.done_iff
    rests := fun hphase => absurd hrunning hphase
    made := fun k t ht => ?_
    taken := fun k t ht => ?_
    completed := fun k t ht => ?_
    unique := fun k k' t t' ht ht' heq => ?_
    pending := fun t ht => ?_ }
  · rcases hcases ht with ht | ⟨rfl, rfl⟩
    · exact ⟨(h.made k t ht).1, Nat.lt_succ_of_lt (h.made k t ht).2⟩
    · exact ⟨Nat.le_refl _, htag ▸ Nat.lt_succ_self _⟩
  · rcases hcases ht with ht | ⟨rfl, rfl⟩
    · rcases h.taken k t ht with htaken | ⟨hwaits, -⟩
      · exact Or.inl (List.mem_append_left _ htaken)
      · exact absurd hwaits hnone
    · exact Or.inr ⟨rfl, rfl⟩
  · rcases hcases ht with ht | ⟨rfl, rfl⟩
    · rcases h.completed k t ht with ⟨r, hr, hdone⟩ | ⟨hget, hk⟩
      · exact Or.inl ⟨r, hr, List.mem_append_left _ hdone⟩
      · refine Or.inr ⟨?_, hk⟩
        simp only [AscMap.get?_insert, if_neg (Nat.ne_of_gt (h.made k t ht).2)]
        exact hget
    · refine Or.inr ⟨?_, rfl⟩
      simp only [htag, AscMap.get?_insert, if_true]
      exact Option.some_ne_none _
  · rcases hcases ht with hold | ⟨rfl, rfl⟩ <;> rcases hcases ht' with hold' | ⟨rfl, rfl⟩
    · exact h.unique k k' t t' hold hold' heq
    · exact absurd (heq.trans htag) (Nat.ne_of_lt (h.made k t hold).2)
    · exact absurd (heq.symm.trans htag) (Nat.ne_of_lt (h.made k' t' hold').2)
    · exact ⟨rfl, rfl⟩
  · cases ht
    exact List.mem_append_right _ (List.mem_singleton_self _)

/-- An access that waits is submitted. -/
theorem submits {a a' : Allocator} (h : Traced set hs port pattern { g with pending := some txn })
    (hrunning : g.phase = .running) (hsubmits : g.Submits txn a g' a') :
    Traced set (hs ++ [.submitted port txn (a.takes g.now g.port txn)]) port pattern g' := by
  have hmore : Traced set (hs ++ [.submitted port txn (a.takes g.now g.port txn)]) port pattern
      { g with pending := some txn } := h.more fun k t ht => by cases List.mem_singleton.mp ht
  cases hsubmits with
  | @taken l hsubmit htaken =>
    have htakes : a.takes g.now g.port txn = true := by
      unfold Allocator.takes
      rw [hsubmit]
      exact htaken
    refine { hmore with
      rests := fun hphase => absurd hrunning hphase
      taken := fun k t ht => ?_
      pending := nofun }
    -- a transaction still waiting is the one submitted here
    rcases hmore.taken k t ht with hdone | ⟨hwaits, -⟩
    · exact Or.inl hdone
    · cases hwaits
      refine Or.inl (List.mem_append_right _ (List.mem_singleton.mpr ?_))
      rw [htakes]
  | refused => exact { hmore with }

/-- It passes a barrier, at which nothing is left. -/
theorem advance (h : Traced set hs port pattern g) (hbarrier : g.atBarrier = true) :
    Traced set hs port (pattern + 1) (g.advance set).2 := by
  -- at the barrier nothing waits and nothing is in flight
  have hphase : g.phase ≠ .running := by
    unfold Generator.atBarrier at hbarrier
    rw [beq_iff_eq] at hbarrier
    rw [hbarrier]
    nofun
  obtain ⟨hpending, hinflight⟩ := h.rests hphase
  have hframe : ∃ phase stats, (g.advance set).2 = { g with
      pattern := g.pattern + 1, reqIndex := 0, phase, stats } ∧
      (phase = .done ↔ set.length ≤ g.pattern + 1) := by
    unfold Generator.advance
    simp only
    split
    · rename_i hle
      exact ⟨_, _, rfl, fun _ => hle, fun _ => rfl⟩
    · rename_i hgt
      exact ⟨_, _, rfl, nofun, fun hle => absurd hle hgt⟩
  obtain ⟨phase, stats, heq, hdone⟩ := hframe
  rw [heq]
  refine {
    port_eq := h.port_eq
    pattern_eq := congrArg (· + 1) h.pattern_eq
    done_iff := by rw [hdone, h.pattern_eq]
    rests := fun _ => ⟨hpending, hinflight⟩
    made := fun k t ht => ⟨Nat.le_succ_of_le (h.made k t ht).1, (h.made k t ht).2⟩
    taken := fun k t ht => ?_
    completed := fun k t ht => ?_
    unique := h.unique
    pending := fun t ht => ?_ }
  · refine (h.taken k t ht).imp_right fun hwaits => ?_
    rw [hpending] at hwaits
    exact absurd hwaits.1 nofun
  · exact (h.completed k t ht).imp_right fun hawaited => absurd (hinflight _) hawaited.1
  · have hnone : some t = none := ht.symm.trans hpending
    cases hnone

/-- Before a pattern is begun, all accesses of the patterns before are over. -/
theorem over_of_lt {k : Nat} {t : Transaction} (h : Traced set hs port pattern g)
    (ht : .made port k t ∈ hs) (hlt : k < pattern) : Over hs port t := by
  constructor
  · exact (h.taken k t ht).resolve_right fun hwaits => absurd hwaits.2 (Nat.ne_of_lt hlt)
  · exact (h.completed k t ht).resolve_right fun hawaited => absurd hawaited.2 (Nat.ne_of_lt hlt)

end Traced

/-- What is known of all generators, with what has happened: they work on one
pattern. -/
structure Marches (set : PatternSet) (hs : List Happening) (pattern : Nat)
    (lanes : List Generator) :
    Prop where
  /-- What is known of each. -/
  lane : ∀ (port : Nat) (g : Generator), lanes[port]? = some g → Traced set hs port pattern g
  /-- Only they make accesses. -/
  known : ∀ port k t, .made port k t ∈ hs → port < lanes.length
  /-- Accesses are submitted pattern by pattern. -/
  staged : Staged hs

namespace Marches

variable {set : PatternSet} {hs new : List Happening} {port pattern : Nat} {g g' : Generator}
  {lanes lanes' : List Generator}

/-- One generator goes on, and what happens concerns its port. -/
theorem replaced (h : Marches set hs pattern lanes) (hlt : port < lanes.length)
    (hself : Traced set (hs ++ new) port pattern g') (hport : ∀ x ∈ new, x.port = port)
    (hstaged : Staged (hs ++ new)) : Marches set (hs ++ new) pattern (lanes.set port g') where
  lane q g hg := by
    -- what is new concerns `port`; the other generators see the trace grow
    by_cases hq : port = q
    · subst hq
      rw [List.getElem?_set_self hlt] at hg
      cases hg
      exact hself
    · rw [List.getElem?_set_ne hq] at hg
      exact (h.lane q g hg).more fun k t ht => hq (hport _ ht).symm
  known q k t ht := by
    rw [List.length_set]
    rcases List.mem_append.mp ht with ht | ht
    · exact h.known q k t ht
    · have hq : q = port := hport _ ht
      exact hq ▸ hlt
  staged := hstaged

/-- Nothing happens to accesses. -/
theorem quiet (h : Marches set hs pattern lanes) (hlt : port < lanes.length)
    (hself : Traced set hs port pattern g') : Marches set hs pattern (lanes.set port g') := by
  have hnext : Marches set (hs ++ []) pattern (lanes.set port g') := by
    refine h.replaced hlt ?_ nofun ?_
    · rw [List.append_nil]
      exact hself
    · rw [List.append_nil]
      exact h.staged
  rw [List.append_nil] at hnext
  exact hnext

theorem hears (h : Marches set hs pattern lanes) (hhears : Hears lanes lanes') :
    Marches set hs pattern lanes' := by
  induction hhears with
  | refl => exact h
  | told _ hg htold ih =>
    exact ih.quiet (List.getElem?_eq_some_iff.mp hg).1 ((ih.lane _ _ hg).told htold)

theorem takes {cs : List (Nat × Response)} (h : Marches set hs pattern lanes)
    (htakes : Takes lanes cs lanes') :
    Marches set (hs ++ cs.map fun c => .completed c.1 c.2) pattern lanes' := by
  induction htakes generalizing hs with
  | nil =>
    rw [List.map_nil, List.append_nil]
    exact h
  | @cons lanes lanes' port r rest g g' hg hreceives _ ih =>
    have hnext : Marches set (hs ++ [.completed port r]) pattern (lanes.set port g') := by
      refine h.replaced (List.getElem?_eq_some_iff.mp hg).1 ((h.lane port g hg).receives hreceives)
        (fun x hx => by rw [List.mem_singleton.mp hx]; rfl) ?_
      exact h.staged.append (fun q txn taken hx => by cases List.mem_singleton.mp hx)
        fun q j t hx => by cases List.mem_singleton.mp hx
    have hrest := ih hnext
    rw [List.append_assoc] at hrest
    exact hrest

/-- An access that waits is submitted: it is one of the pattern that all work on. -/
theorem submits {txn : Transaction} {a a' : Allocator} (h : Marches set hs pattern lanes)
    (hlane : lanes[port]? = some { g with pending := some txn }) (hrunning : g.phase = .running)
    (hsubmits : g.Submits txn a g' a') :
    Marches set (hs ++ [.submitted port txn (a.takes g.now g.port txn)]) pattern
      (lanes.set port g') := by
  have htraced := h.lane port _ hlane
  refine h.replaced (List.getElem?_eq_some_iff.mp hlane).1 (htraced.submits hrunning hsubmits)
    (fun x hx => by rw [List.mem_singleton.mp hx]; rfl) ?_
  refine h.staged.submitted _ (htraced.pending txn rfl) fun q j t ht hlt => ?_
  have hq := List.getElem?_eq_getElem (h.known q j t ht)
  exact (h.lane q _ hq).over_of_lt ht hlt

/-- **A generator has its part of a cycle.** -/
theorem moves {now : Nat} {a : Allocator} {l : Logged (Option Nat × Generator × Allocator)}
    (h : Marches set hs pattern lanes) (hg : lanes[port]? = some g)
    (htick : g.tick now set a = .ok l) :
    Marches set (hs ++ g.happenings now set a) pattern (lanes.set port l.value.2.1) := by
  have hlt := (List.getElem?_eq_some_iff.mp hg).1
  have htraced : Traced set hs port pattern { g with now } := { h.lane port g hg with }
  have hport : g.port = port := htraced.port_eq
  have hpattern : g.pattern = pattern := htraced.pattern_eq
  have hmoves := Generator.moves_of_tick htick
  unfold Generator.happenings
  generalize g.offer? now set = offer at hmoves ⊢
  generalize l.value.2.1 = g' at hmoves ⊢
  generalize l.value.2.2 = a' at hmoves
  cases hmoves with
  | waits =>
    simp only [List.append_nil]
    exact h.quiet hlt htraced
  | ends hrunning hnone =>
    -- a generator that works has a pattern
    have hle := List.getElem?_eq_none_iff.mp hnone
    have hdone : g.phase = .done := htraced.done_iff.mpr (hpattern ▸ hle)
    cases hdone.symm.trans hrunning
  | finishes hrunning hpending hall hempty =>
    simp only [List.append_nil]
    have hphase : Phase.atBarrier = .done ↔ set.length ≤ pattern := by
      rw [← htraced.done_iff]
      exact ⟨nofun, fun hdone => by cases hdone.symm.trans hrunning⟩
    exact h.quiet hlt { htraced with
      done_iff := hphase
      rests := fun _ => ⟨hpending, AscMap.get?_of_isEmpty hempty⟩ }
  | @repeats txn _ _ hrunning hopen hpending hsubmits =>
    have hlane : (lanes.set port { g with now })[port]? =
        some { ({ g with now } : Generator) with pending := some txn } := by
      rw [List.getElem?_set_self hlt, ← hpending]
    have hnext := (h.quiet hlt htraced).submits hlane hrunning hsubmits
    rw [List.set_set] at hnext
    rw [hport] at hnext ⊢
    exact hnext
  | @makes p txn g₁ _ _ hrunning hopen hpending hp hreq hmakes hsubmits =>
    obtain ⟨-, awaited, reqIndex, shadow, scValue, hframe⟩ := hmakes.frame
    have hmade := htraced.makes hrunning hpending hmakes
    have hmarches : Marches set (hs ++ [.made port pattern txn]) pattern
        (lanes.set port { g₁ with pending := some txn }) := by
      refine h.replaced hlt hmade (fun x hx => by rw [List.mem_singleton.mp hx]; rfl) ?_
      refine h.staged.append (fun q t taken hx => by cases List.mem_singleton.mp hx) ?_
      intro q j t hx q' k t' hold
      cases List.mem_singleton.mp hx
      have hq := List.getElem?_eq_getElem (h.known q' k t' hold)
      exact ((h.lane q' _ hq).made k t' hold).1
    have hnext := hmarches.submits (List.getElem?_set_self hlt) (by rw [hframe]; exact hrunning)
      hsubmits
    have hnow : g₁.now = now := by rw [hframe]
    have hport₁ : g₁.port = port := by rw [hframe]; exact hport
    rw [List.set_set, List.append_assoc, hnow, hport₁] at hnext
    rw [hport, hpattern]
    exact hnext

/-- All generators pass a barrier. -/
theorem passes (h : Marches set hs pattern lanes) (hall : ∀ g ∈ lanes, g.atBarrier = true) :
    Marches set hs (pattern + 1) (lanes.map (·.passed set)) where
  lane port g hg := by
    rw [List.getElem?_map] at hg
    obtain ⟨g₀, hg₀, rfl⟩ := Option.map_eq_some_iff.mp hg
    have hbarrier := hall g₀ (List.mem_of_getElem? hg₀)
    unfold Generator.passed
    rw [if_pos hbarrier]
    exact (h.lane port g₀ hg₀).advance hbarrier
  known port k t ht := by
    rw [List.length_map]
    exact h.known port k t ht
  staged := h.staged

/-- **Every piece of a cycle in lockstep keeps what is known.** -/
theorem piece {m m' : Plant} (h : Marches set hs pattern m.lanes)
    (hpiece : Plant.Piece set true m new m') :
    ∃ pattern', Marches set (hs ++ new) pattern' m'.lanes := by
  cases hpiece with
  | moves j hg htick => exact ⟨pattern, h.moves hg htick⟩
  | answers hdrain hanswer =>
    obtain ⟨_, -, -, htakes, -⟩ := Plant.takes_of_answer hanswer
    exact ⟨pattern, h.takes htakes⟩
  | turns hbusy hturn =>
    rw [List.append_nil]
    exact ⟨pattern, h.hears (Plant.hears_turned (Assembly.turned_of_issueTurn hbusy hturn))⟩
  | passes hall =>
    rw [List.append_nil]
    exact ⟨pattern + 1, h.passes (hall rfl)⟩
  | rests hrests =>
    rw [List.append_nil]
    exact ⟨pattern, h.hears hrests.lanes⟩

/-- New generators have made nothing. -/
theorem of_new {config : TrafficConfig} {ports : Nat} :
    Marches set [] 0 ((List.range ports).map fun port => .new port ports config set) where
  lane port g hg := by
    rw [List.getElem?_map] at hg
    obtain ⟨q, hq, rfl⟩ := Option.map_eq_some_iff.mp hg
    obtain ⟨hlt, rfl⟩ := List.getElem?_eq_some_iff.mp hq
    exact {
      port_eq := List.getElem_range hlt
      pattern_eq := rfl
      -- a set without patterns is done before it starts
      done_iff := by
        show (if set.patterns.isEmpty then Phase.done else .running) = .done ↔
          set.patterns.length ≤ 0
        cases set.patterns <;> simp
      rests := fun _ => ⟨rfl, AscMap.get?_empty⟩
      made := nofun
      taken := nofun
      completed := nofun
      unique := nofun
      pending := nofun }
  known := nofun
  staged := fun earlier later port txn taken hsplit => by cases earlier <;> cases hsplit

/-- **Along a path in lockstep all generators work on one pattern.** -/
theorem path {m m' : Plant} (h : Marches set [] pattern m.lanes)
    (hpath : Plant.Pieces set true m hs m') : ∃ pattern', Marches set hs pattern' m'.lanes :=
  hpath.induct (P := fun hs m => ∃ pattern, Marches set hs pattern m.lanes) ⟨pattern, h⟩
    fun _ _ _ _ ⟨_, hbefore⟩ hpiece => hbefore.piece hpiece

end Marches

namespace Simulation

theorem lockstep_of_new {s : Settings} {level : Level} {sim : Simulation}
    (h : Simulation.new s level = .ok sim) : sim.lockstep = s.traffic.lockstep := by
  unfold Simulation.new at h
  obtain ⟨_, -, h⟩ := exists_of_bind_eq_ok h
  obtain ⟨set, -, h⟩ := exists_of_bind_eq_ok h
  obtain ⟨allocator, -, h⟩ := exists_of_bind_eq_ok h
  obtain ⟨memory, -, heq⟩ := exists_of_bind_eq_ok h
  cases heq
  rfl

/-- **In lockstep no generator is ahead of another.**  After every cycle all
generators are at the same pattern, and they are done all together.  No access
is submitted before all accesses that any generator made for an earlier pattern
have been taken and completed; and the tag of a completion tells which access of
a port it is for.  What the history says of submissions and completions is
right: in every cycle the allocator gets those submissions and the generators
take those completions, and no others. -/
theorem lockstep_barrier {s : Settings} {level : Level} {sim : Simulation}
    (hnew : Simulation.new s level = .ok sim) (hlockstep : s.traffic.lockstep = true) (n : Nat) :
    (∀ s', sim.afterCycles n = .ok () s' →
      (∃ pattern, ∀ g ∈ s'.generators, g.pattern = pattern) ∧
        ((∀ g ∈ s'.generators, g.isDone = true) ∨
          ∀ g ∈ s'.generators, g.isDone = false)) ∧
    Staged (sim.history n) ∧
    (∀ port j k t t', .made port j t ∈ sim.history n → .made port k t' ∈ sim.history n →
      t.tag = t'.tag → j = k ∧ t = t') ∧
    ∀ s s', sim.afterCycles n = .ok () s →
      ({ s with cycle := n } : Simulation).step n = .ok () s' →
      ∃ hs, sim.history (n + 1) = sim.history n ++ hs ∧
        ({ s with cycle := n } : Simulation).Exchanges n hs s' := by
  have hbegins := begins_of_new hnew
  have hstart : Marches sim.set [] 0 (Plant.lanes sim.assembly) := by
    rw [show Plant.lanes sim.assembly = sim.generators from rfl, hbegins.generators]
    exact .of_new
  obtain ⟨m, hpath, hlast⟩ := sim.path_history n
  rw [(lockstep_of_new hnew).trans hlockstep] at hpath
  obtain ⟨pattern, hmarches⟩ := hstart.path hpath
  refine ⟨fun s' hafter => ?_, hmarches.staged, fun port j k t t' ht ht' htag => ?_,
    fun s s' => exchanges_history⟩
  · obtain ⟨-, rfl⟩ := hlast s' hafter
    have hlane : ∀ g ∈ s'.generators, g.pattern = pattern ∧
        (g.phase = .done ↔ sim.set.length ≤ pattern) := by
      intro g hg
      obtain ⟨port, hport⟩ := List.getElem?_of_mem hg
      have htraced := hmarches.lane port g hport
      exact ⟨htraced.pattern_eq, htraced.done_iff⟩
    refine ⟨⟨pattern, fun g hg => (hlane g hg).1⟩, ?_⟩
    -- they are all at one pattern, so all are past the last one or none is
    by_cases hle : sim.set.length ≤ pattern
    · exact Or.inl fun g hg => beq_iff_eq.mpr ((hlane g hg).2.mpr hle)
    · exact Or.inr fun g hg => beq_eq_false_iff_ne.mpr fun hdone => hle ((hlane g hg).2.mp hdone)
  · have hg := List.getElem?_eq_getElem (hmarches.known port j t ht)
    exact (hmarches.lane port _ hg).unique j k t t' ht ht' htag

/-- Two ports increment the counter once each, and then load from the shared
region once each. -/
def incrementsThenLoads : Settings :=
  { fastIncrements with traffic := { fastIncrements.traffic with
      patterns := [{ kind := "atomic" }, { kind := "strided" }] } }

/-- The first load is submitted after both increments, although the first port
finished its own long before; and the cycle after these ten hands over what the
history has of it. -/
theorem lockstep_barrier_incrementsThenLoads : ∃ sim s' port txn taken k,
    Simulation.new incrementsThenLoads .warn = .ok sim ∧
    incrementsThenLoads.traffic.lockstep = true ∧
    sim.afterCycles 10 = .ok () s' ∧
    (∃ pattern, ∀ g ∈ s'.generators, g.pattern = pattern) ∧
    (sim.history 10)[13]? = some (.submitted port txn taken) ∧
    .made port k txn ∈ (sim.history 10).take 13 ∧
    (∀ q j t, .made q j t ∈ sim.history 10 → j < k →
      Over ((sim.history 10).take 13) q t) ∧
    ∃ s'' hs, ({ s' with cycle := 10 } : Simulation).step 10 = .ok () s'' ∧
      sim.history 11 = sim.history 10 ++ hs ∧
      ({ s' with cycle := 10 } : Simulation).Exchanges 10 hs s'' := by
  obtain ⟨sim, hnew, hsim⟩ := exists_of_any (x := Simulation.new incrementsThenLoads .warn)
    (p := fun sim => (sim.afterCycles 11).isOk && (sim.history 10)[13]?.any fun
      | .submitted .. => true
      | _ => false) (by decide +kernel)
  rw [Bool.and_eq_true, Option.any_eq_true_iff_get] at hsim
  obtain ⟨hlast, hsome, hget⟩ := hsim
  obtain ⟨_, s'', hlast⟩ := Run.exists_of_isOk hlast
  obtain ⟨s', hafter, hstep⟩ := step_of_afterCycles hlast
  obtain ⟨hpatterns, hstaged, -, hexchanges⟩ := lockstep_barrier hnew rfl 10
  obtain ⟨hs, hgrown, hcycle⟩ := hexchanges s' s'' hafter hstep
  obtain ⟨x, hx⟩ := Option.isSome_iff_exists.mp hsome
  obtain ⟨hlt, helem⟩ := List.getElem?_eq_some_iff.mp hx
  have hsplit : sim.history 10 = (sim.history 10).take 13 ++ x :: (sim.history 10).drop 14 := by
    rw [← helem, ← List.drop_eq_getElem_cons hlt, List.take_append_drop]
  simp only [hx, Option.get_some] at hget
  cases x with
  | made _ _ _ => cases hget
  | completed _ _ => cases hget
  | submitted port txn taken =>
    obtain ⟨k, hk, hover⟩ := hstaged _ _ port txn taken hsplit
    exact ⟨sim, s', port, txn, taken, k, hnew, rfl, hafter, (hpatterns s' hafter).1,
      hx, hk, hover, s'', hs, hstep, hgrown, hcycle⟩

end Simulation

end MemPort
