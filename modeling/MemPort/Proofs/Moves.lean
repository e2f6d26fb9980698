import MemPort.Proofs.Generators

/-!
# What a generator does in its part of a cycle

In its part of a cycle a generator waits, or finishes a pattern, or submits one
access: the one that was refused before, or one that it makes.  An access that
is made is awaited under the next tag, and then it is taken or kept.  Here every
way through the code is one case of a relation (`Generator.Moves`), which says
of the generator afterwards all that it says of it, so that a property of
generators is proved by going through these cases, and never by opening the
code.

Between its parts of two cycles a generator is only told things: completions,
leaves to repeat a submission, and snoops.  What becomes of the generators of
all lanes when some of them are told of leaves and snoops is again one relation
(`Hears`), and so is what becomes of them when completions are handed out
(`Takes`).

## Main definitions

* `Generator.offer?` — the access that a generator submits, and whether it is
  made then.
* `Generator.Makes`, `Generator.Submits`, `Generator.Moves` — its part of a
  cycle.
* `Hears`, `Takes` — generators that are told of leaves and snoops, or handed
  completions.

## Main results

* `Generator.moves_of_tick` — the part of a cycle is one of its cases.

## References

`SPEC_FULL.md`, section 10.7: what a synthetic requestor does.
-/

namespace MemPort

namespace Generator

/-- The access that a generator submits in its part of a cycle, and whether it
is made then. -/
def offer? (g : Generator) (now : Nat) (set : PatternSet) : Option (Bool × Transaction) :=
  let g := { g with now }
  if g.phase ≠ .running || g.blocked then none
  else
    match set.patterns[g.pattern]? with
    | none => none
    | some p =>
        match g.pending with
        | some txn => some (false, txn)
        | none =>
            if set.reqsPerPattern ≤ g.reqIndex then none
            else
              match if p.isAtomic then g.nextIncrement else g.nextAccess set p with
              | .ok (some (txn, _)) => some (true, txn)
              | _ => none

/-- A generator makes an access of a pattern: it is awaited under the next tag. -/
inductive Makes (p : Pattern) (g : Generator) : Transaction → Generator → Prop
  /-- It loads the counter. -/
  | loads {addr : Nat} (hatomic : p.isAtomic = true) (hempty : g.inflight.isEmpty = true)
      (hvalue : g.scValue = none) :
      Makes p g (g.await (.load .loadLocked g.nextTag addr counterBytes) .counterValue).1
        (g.await (.load .loadLocked g.nextTag addr counterBytes) .counterValue).2
  /-- It stores the value after the one that it has loaded. -/
  | stores {addr value : Nat} (hatomic : p.isAtomic = true) (hempty : g.inflight.isEmpty = true)
      (hvalue : g.scValue = some value) :
      Makes p g
        (({ g with scValue := none } : Generator).await
          (.store .storeCond g.nextTag addr (wordBytes value)) .incrementOutcome).1
        (({ g with scValue := none } : Generator).await
          (.store .storeCond g.nextTag addr (wordBytes value)) .incrementOutcome).2
  /-- It makes one of the accesses of the pattern. -/
  | accesses {txn : Transaction} {expectation : Expectation} {shadow : ByteMap}
      (hother : p.isAtomic = false) (htag : txn.tag = g.nextTag) (hcmd : txn.cmd.isLinked = false)
      (hexpectation : expectation ≠ .counterValue ∧ expectation ≠ .incrementOutcome) :
      Makes p g (({ g with shadow } : Generator).await txn expectation).1
        { (({ g with shadow } : Generator).await txn expectation).2 with
          reqIndex := g.reqIndex + 1 }

/-- A generator submits an access, and keeps it if it is refused. -/
inductive Submits (g : Generator) (txn : Transaction) (a : Allocator) :
    Generator → Allocator → Prop
  /-- It is taken. -/
  | taken {l : Logged (Bool × Allocator)} (hsubmit : a.submit g.now g.port txn = .ok l)
      (htaken : l.value.1 = true) :
      Submits g txn a (({ g with pending := none } : Generator).count fun c =>
        { c with issued := c.issued + 1 }) l.value.2
  /-- It is refused. -/
  | refused {l : Logged (Bool × Allocator)} (hsubmit : a.submit g.now g.port txn = .ok l)
      (htaken : l.value.1 = false) :
      Submits g txn a (({ g with pending := some txn, blocked := true } : Generator).count fun c =>
        { c with rejects := c.rejects + 1 }) l.value.2

/-- What a generator does in its part of a cycle, with the access that it
submits. -/
inductive Moves (set : PatternSet) (g : Generator) (a : Allocator) :
    Option (Bool × Transaction) → Generator → Allocator → Prop
  /-- It waits. -/
  | waits : Moves set g a none g a
  /-- There is no pattern left. -/
  | ends (hrunning : g.phase = .running) (hnone : set.patterns[g.pattern]? = none) :
      Moves set g a none { g with phase := .done } a
  /-- The pattern is finished. -/
  | finishes (hrunning : g.phase = .running) (hpending : g.pending = none)
      (hall : set.reqsPerPattern ≤ g.reqIndex) (hempty : g.inflight.isEmpty = true) :
      Moves set g a none { g with phase := .atBarrier } a
  /-- An access is submitted again. -/
  | repeats {txn : Transaction} {g' : Generator} {a' : Allocator} (hrunning : g.phase = .running)
      (hopen : g.blocked = false) (hpending : g.pending = some txn)
      (hsubmits : g.Submits txn a g' a') :
      Moves set g a (some (false, txn)) g' a'
  /-- An access is made and submitted. -/
  | makes {p : Pattern} {txn : Transaction} {g₁ g' : Generator} {a' : Allocator}
      (hrunning : g.phase = .running) (hopen : g.blocked = false) (hpending : g.pending = none)
      (hp : set.patterns[g.pattern]? = some p) (hreq : g.reqIndex < set.reqsPerPattern)
      (hmakes : g.Makes p txn g₁) (hsubmits : g₁.Submits txn a g' a') :
      Moves set g a (some (true, txn)) g' a'

variable {g g' : Generator} {set : PatternSet} {p : Pattern} {txn : Transaction} {a : Allocator}

theorem makes_of_nextIncrement (hatomic : p.isAtomic = true)
    (h : g.nextIncrement = .ok (some (txn, g'))) : g.Makes p txn g' := by
  unfold nextIncrement at h
  split at h
  · cases h
  · rename_i hinflight
    -- an increment is made only while nothing is in flight
    have hempty : g.inflight.isEmpty = true := by
      cases hb : g.inflight.isEmpty with
      | true => rfl
      | false =>
        rw [hb] at hinflight
        exact absurd rfl hinflight
    obtain ⟨addr, -, heq⟩ := exists_of_map_eq_ok h
    unfold makeIncrement at heq
    -- a value in hand makes the store-conditional, none the load-locked
    cases hvalue : g.scValue with
    | some value =>
      rw [hvalue] at heq
      cases heq
      exact .stores hatomic hempty hvalue
    | none =>
      rw [hvalue] at heq
      cases heq
      exact .loads hatomic hempty hvalue

theorem makes_of_nextAccess (hother : p.isAtomic = false)
    (h : g.nextAccess set p = .ok (some (txn, g'))) : g.Makes p txn g' := by
  unfold nextAccess at h
  split at h
  · cases h
  · split at h
    · cases h
    · cases h
    · rename_i offset _
      obtain ⟨made, hmade, heq⟩ := exists_of_map_eq_ok h
      cases heq
      unfold makeAt at hmade
      simp only at hmade
      split at hmade
      · cases hmade
      · cases hmade
        unfold makeAccess
        -- none of the three operations makes a linked access
        cases p.op with
        | read => exact .accesses hother rfl rfl ⟨nofun, nofun⟩
        | write => exact .accesses hother rfl rfl ⟨nofun, nofun⟩
        | swap => exact .accesses hother rfl rfl ⟨nofun, nofun⟩

theorem submits_of_submit? {l : Logged (Option Nat × Generator × Allocator)}
    (h : g.submit? (some txn) a = .ok l) : g.Submits txn a l.value.2.1 l.value.2.2 := by
  unfold submit? submit at h
  obtain ⟨l₁, h₁, heq⟩ := exists_of_map_eq_ok h
  obtain ⟨l₂, h₂, heq₂⟩ := exists_of_map_eq_ok h₁
  cases heq
  cases heq₂
  simp only [Logged.map, Logged.value_andThen]
  cases htaken : l₂.value.1 with
  | true => exact .taken h₂ htaken
  | false => exact .refused h₂ htaken

/-- **In its part of a cycle a generator makes one of its moves.** -/
theorem moves_of_tick {now : Nat} {l : Logged (Option Nat × Generator × Allocator)}
    (h : g.tick now set a = .ok l) :
    Moves set { g with now } a (g.offer? now set) l.value.2.1 l.value.2.2 := by
  unfold tick at h
  unfold offer?
  -- the clock is set before anything else is looked at
  generalize ({ g with now } : Generator) = g at h ⊢
  simp only at h ⊢
  split at h
  · rename_i hstop
    cases h
    rw [if_pos hstop]
    exact .waits
  · rename_i hgo
    rw [if_neg hgo]
    rw [Bool.or_eq_true, not_or, decide_eq_true_eq, not_not, Bool.not_eq_true] at hgo
    obtain ⟨hrunning, hopen⟩ := hgo
    cases hp : set.patterns[g.pattern]? with
    | none =>
      rw [hp] at h
      cases h
      exact .ends hrunning hp
    | some p =>
      rw [hp] at h
      simp only at h ⊢
      unfold work at h
      -- a transaction that was refused goes before anything new
      cases hpending : g.pending with
      | some txn =>
        rw [hpending] at h
        exact .repeats hrunning hopen hpending (submits_of_submit? h)
      | none =>
        have hnone : ¬ g.pending.isSome = true := by
          rw [hpending]
          exact Bool.false_ne_true
        rw [if_neg hnone] at h
        -- the pattern is over once all its requests are made and answered
        by_cases hall : set.reqsPerPattern ≤ g.reqIndex
        · rw [if_pos hall] at h
          simp only [if_pos hall]
          split at h
          · rename_i hempty
            cases h
            exact .finishes hrunning hpending hall hempty
          · cases h
            exact .waits
        · rw [if_neg hall] at h
          simp only [if_neg hall]
          split at h
          · cases h
          · rename_i hnone
            cases h
            rw [hnone]
            exact .waits
          · rename_i txn g₁ hsome
            rw [hsome]
            refine .makes hrunning hopen hpending hp (Nat.not_le.mp hall) ?_ (submits_of_submit? h)
            cases hatomic : p.isAtomic with
            | true =>
              rw [hatomic] at hsome
              exact makes_of_nextIncrement hatomic hsome
            | false =>
              rw [hatomic] at hsome
              exact makes_of_nextAccess hatomic hsome

/-- What making an access leaves as it was. -/
theorem Makes.frame (h : g.Makes p txn g') : txn.tag = g.nextTag ∧
    ∃ awaited reqIndex shadow scValue, g' = { g with
      nextTag := g.nextTag + 1
      inflight := g.inflight.insert g.nextTag awaited
      reqIndex, shadow, scValue } := by
  cases h with
  | loads => exact ⟨rfl, _, _, _, _, rfl⟩
  | stores => exact ⟨rfl, _, _, _, _, rfl⟩
  | @accesses t expectation shadow _ htag =>
    refine ⟨htag, ⟨t.addr, expectation, g.now⟩, g.reqIndex + 1, shadow, g.scValue, ?_⟩
    unfold await
    rw [htag]

/-! ### What comes back -/

/-- A generator has found something wrong. -/
def reporting (g : Generator) (f : GeneratorFault) : Generator :=
  { g with fault := g.fault.or (some f) }

/-- A generator that no longer awaits the access under a tag. -/
def without (g : Generator) (tag totalLatency maxLatency : Nat) : Generator :=
  ({ g with inflight := g.inflight.erase tag } : Generator).count fun c =>
    { c with completed := c.completed + 1, totalLatency, maxLatency }

/-- What becomes of a generator when a completion comes back. -/
inductive Receives (g : Generator) (r : Response) : Generator → Prop
  /-- The completion is not awaited. -/
  | stray {f : GeneratorFault} (hget : g.inflight.get? r.tag = none) : Receives g r (g.reporting f)
  /-- It does not bring what it must. -/
  | wrong {f : GeneratorFault} {awaited : Awaited} {totalLatency maxLatency : Nat}
      (hget : g.inflight.get? r.tag = some awaited) :
      Receives g r ((g.without r.tag totalLatency maxLatency).reporting f)
  /-- It is that of an access of a pattern. -/
  | accessed {awaited : Awaited} {totalLatency maxLatency : Nat}
      (hget : g.inflight.get? r.tag = some awaited)
      (hexpectation : awaited.expectation ≠ .counterValue ∧
        awaited.expectation ≠ .incrementOutcome) :
      Receives g r (g.without r.tag totalLatency maxLatency)
  /-- It brings the value of the counter. -/
  | loaded {awaited : Awaited} {totalLatency maxLatency value : Nat}
      (hget : g.inflight.get? r.tag = some awaited)
      (hexpectation : awaited.expectation = .counterValue) :
      Receives g r { g.without r.tag totalLatency maxLatency with scValue := some value }
  /-- It tells of an increment. -/
  | incremented {awaited : Awaited} {totalLatency maxLatency : Nat}
      (hget : g.inflight.get? r.tag = some awaited)
      (hexpectation : awaited.expectation = .incrementOutcome) (hsuccess : r.success = true) :
      Receives g r (({ g.without r.tag totalLatency maxLatency with
        reqIndex := g.reqIndex + 1 } : Generator).count fun c =>
          { c with scSuccesses := c.scSuccesses + 1 })
  /-- It tells that there was none. -/
  | failed {awaited : Awaited} {totalLatency maxLatency : Nat}
      (hget : g.inflight.get? r.tag = some awaited)
      (hexpectation : awaited.expectation = .incrementOutcome) (hfailure : r.success = false) :
      Receives g r ((g.without r.tag totalLatency maxLatency).count fun c =>
        { c with scFailures := c.scFailures + 1 })

/-- **A completion that comes back is one of those**, unless a contract is
broken. -/
theorem receives_of_receive {r : Response} (h : (g.receive r).value = (.ok (), g')) :
    g.Receives r g' := by
  unfold receive at h
  split at h
  · rename_i hget
    cases h
    exact .stray hget
  · rename_i awaited hget
    simp only at h
    split at h
    · cases h
    · rename_i totalLatency _
      have heq : _ = g' := congrArg Prod.snd h
      rw [← heq]
      unfold judge
      simp only [Logged.map]
      -- one case for each expectation an access in flight can carry
      split
      · rename_i hexpectation
        have hexpectation : awaited.expectation ≠ .counterValue ∧
            awaited.expectation ≠ .incrementOutcome := by
          rw [hexpectation]
          exact ⟨by simp, by simp⟩
        split
        · exact .accessed hget hexpectation
        · exact .wrong hget
      · rename_i hexpectation
        refine .accessed hget ?_
        rw [hexpectation]
        exact ⟨by simp, by simp⟩
      · rename_i hexpectation
        split
        · exact .loaded hget hexpectation
        · exact .wrong hget
      · rename_i hexpectation
        split
        · rename_i hsuccess
          exact .incremented hget hexpectation hsuccess
        · rename_i hfailure
          exact .failed hget hexpectation (Bool.not_eq_true _ ▸ hfailure)

/-- What a completion leaves as it was. -/
theorem Receives.frame {r : Response} (h : g.Receives r g') :
    ∃ reqIndex scValue fault stats, g' = { g with
      inflight := g.inflight.erase r.tag
      reqIndex, scValue, fault, stats } := by
  cases h with
  | @stray f hget =>
    refine ⟨g.reqIndex, g.scValue, g.fault.or (some f), g.stats, ?_⟩
    rw [AscMap.erase_of_get?_eq_none hget]
    rfl
  | wrong => exact ⟨_, _, _, _, rfl⟩
  | accessed => exact ⟨_, _, _, _, rfl⟩
  | loaded => exact ⟨_, _, _, _, rfl⟩
  | incremented => exact ⟨_, _, _, _, rfl⟩
  | failed => exact ⟨_, _, _, _, rfl⟩

/-- What becomes of a generator when it is told of a leave to repeat a
submission, or of a snoop. -/
inductive Told (g : Generator) : Generator → Prop
  /-- It may repeat a submission. -/
  | retried (hblocked : g.blocked = true) :
      Told g (({ g with blocked := false } : Generator).count fun c =>
        { c with retries := c.retries + 1 })
  /-- It may, but there is none. -/
  | unasked {f : GeneratorFault} : Told g (g.reporting f)
  /-- Another lane made an exclusive access. -/
  | snooped : Told g (g.count fun c => { c with snoops := c.snoops + 1 })
  /-- It went to the private region of this one. -/
  | trespassed {f : GeneratorFault} :
      Told g ((g.count fun c => { c with snoops := c.snoops + 1 }).reporting f)

/-- What being told leaves as it was. -/
theorem Told.frame (h : g.Told g') :
    ∃ blocked fault stats, g' = { g with blocked, fault, stats } := by
  cases h <;> exact ⟨_, _, _, rfl⟩

theorem told_retried (g : Generator) : g.Told g.retried.value := by
  unfold Generator.retried
  split
  · rename_i hblocked
    exact .retried hblocked
  · exact .unasked

theorem told_snooped (g : Generator) (snoop : Snoop) : g.Told (g.snooped snoop).value.2 := by
  unfold Generator.snooped
  simp only
  split
  · exact .snooped
  · split
    · exact .trespassed
    · exact .snooped

end Generator

/-! ### All lanes -/

/-- What becomes of generators when some of them are told of leaves and of
snoops. -/
inductive Hears (lanes : List Generator) : List Generator → Prop
  /-- None is told anything. -/
  | refl : Hears lanes lanes
  /-- One more is told. -/
  | told {lanes' : List Generator} {port : Nat} {g g' : Generator} (h : Hears lanes lanes')
      (hg : lanes'[port]? = some g) (htold : g.Told g') : Hears lanes (lanes'.set port g')

/-- What becomes of generators when completions are handed out, one after the
other. -/
inductive Takes : List Generator → List (Nat × Response) → List Generator → Prop
  /-- None is left. -/
  | nil (lanes : List Generator) : Takes lanes [] lanes
  /-- One is handed out. -/
  | cons {lanes lanes' : List Generator} {port : Nat} {r : Response} {rest : List (Nat × Response)}
      {g g' : Generator} (hg : lanes[port]? = some g) (hreceives : g.Receives r g')
      (h : Takes (lanes.set port g') rest lanes') : Takes lanes ((port, r) :: rest) lanes'

theorem Hears.trans {lanes lanes₁ lanes' : List Generator} (h : Hears lanes lanes₁)
    (h' : Hears lanes₁ lanes') : Hears lanes lanes' := by
  induction h' with
  | refl => exact h
  | told _ hg htold ih => exact ih.told hg htold

theorem Takes.append {lanes lanes₁ lanes' : List Generator} {cs cs' : List (Nat × Response)}
    (h : Takes lanes cs lanes₁) (h' : Takes lanes₁ cs' lanes') :
    Takes lanes (cs ++ cs') lanes' := by
  induction h with
  | nil => exact h'
  | cons hg hreceives _ ih => exact .cons hg hreceives (ih h')

/-- Retries and snoops are all that the lanes are told. -/
theorem Notified.hears {s t : Generators × DelayedMemory} (h : Notified s t) :
    Hears s.1.lanes t.1.lanes ∧ t.2 = s.2 := by
  -- a chain of notices is heard notice by notice, each by one generator
  induction h with
  | refl => exact ⟨.refl, rfl⟩
  | @retried t port _ ih =>
    refine ⟨?_, ih.2⟩
    show Hears s.1.lanes (t.1.retried port).value.lanes
    unfold Generators.retried
    split
    · exact ih.1
    · rename_i g hg
      exact ih.1.told hg g.told_retried
  | @snooped t port snoop _ ih =>
    refine ⟨?_, ih.2⟩
    show Hears s.1.lanes (t.1.act port (·.snooped snoop)).value.2.lanes
    unfold Generators.act
    split
    · exact ih.1
    · rename_i g hg
      exact ih.1.told hg (g.told_snooped snoop)

/-- **Completions that are all handed out are taken by their lanes.** -/
theorem takes_of_deliverAll {m m' : Assembly (Generators × DelayedMemory)}
    {cs : List (Nat × Response)} (h : m.deliverAll cs = .ok () m') :
    Takes m.surroundings.1.lanes cs m'.surroundings.1.lanes ∧
      m'.surroundings.2 = m.surroundings.2 := by
  induction cs generalizing m with
  | nil =>
    cases h
    exact ⟨.nil _, rfl⟩
  | cons c rest ih =>
    obtain ⟨port, r⟩ := c
    obtain ⟨m₁, hdelivered, hrest⟩ := Assembly.deliverAll_cons_eq_ok h
    obtain ⟨htakes, hmemory⟩ := ih hrest
    obtain ⟨hanswer, rfl⟩ := Assembly.settle_eq_ok hdelivered
    -- a delivery calls the generator, and its verdict is read as an acceptance
    have hcall : (Requestors.deliver port r m.surroundings).value =
        ((m.surroundings.1.act port (·.receive r)).value.1.map fun _ => true,
          ((m.surroundings.1.act port (·.receive r)).value.2, m.surroundings.2)) := rfl
    rw [hcall] at hanswer
    simp only [hcall] at htakes hmemory
    unfold Generators.act at hanswer htakes hmemory
    cases hg : m.surroundings.1.lanes[port]? with
    -- without a generator the delivery fails, so it cannot have gone through
    | none =>
      rw [hg] at hanswer
      cases hanswer
    | some g =>
      simp only [hg, Logged.map] at hanswer htakes hmemory
      have hok : (g.receive r).value.1 = .ok () := by
        cases hreceived : (g.receive r).value.1 with
        | error a =>
          rw [hreceived] at hanswer
          cases hanswer
        | ok _ => rfl
      exact ⟨.cons hg (Generator.receives_of_receive (Prod.ext hok rfl)) htakes, hmemory⟩

end MemPort
