import MemPort.Bench.EchoMemory
import MemPort.Bench.Lanes
import MemPort.Proofs.Arrivals
import MemPort.Proofs.Tallies

/-!
# The watchdog bounds every wait

Once in a period the watchdog looks at the front of every queue, and fails the
cycle where one has waited for longer than a period.  It looks at no other
entry, and not in between.  All the same no transaction waits for more than two
periods, if cycles follow on each other and none fails: the front of a queue is
its oldest entry, and from the arrival of an entry it takes less than a period
to the next check, which is passed by a young entry, and one more period to the
check after it, which is passed by no entry that is still there and has waited
for longer than a period.

Two things are known of every stamp in a queue between the calls of a run: the
next tick comes no later than two periods after it, and so does the next check
(`Watched`).  The time of the last activity is such a stamp too, where the
watchdog looks at it.

## Main definitions

* `Paced` — calls in which every cycle has one tick.
* `Watched` — what the watchdog has made sure of before the next tick.

## Main results

* `Assembly.checkProgress_ok` — what a check that is passed has seen.
* `Watched.step`, `Watched.checked` — the pieces of a cycle keep to it.
* `waits_bounded` — no transaction waits for more than two periods.

## References

`SPEC_FULL.md`, section 4.6: the watchdog; section 7, class (c).
-/

namespace MemPort

/-! ### Checks -/

/-- An inspection that finds nothing has seen no front that waited for too long. -/
theorem Allocator.inspect_eq_none {now period : Nat} {ports : List RequestorPort}
    (h : (Allocator.inspect now period ports).value = none) {p : RequestorPort} (hp : p ∈ ports)
    {head : Stamped Transaction} (hhead : p.queue.front? = some head) :
    head.age now ≤ period := by
  induction ports with
  | nil => cases hp
  | cons q rest ih =>
    unfold Allocator.inspect at h
    simp only at h
    split at h
    · rename_i front hfront
      split at h
      · cases h
      · rename_i hyoung
        rcases List.mem_cons.mp hp with rfl | hp
        · rw [hfront] at hhead
          cases hhead
          exact Nat.le_of_not_lt hyoung
        · exact ih h hp
    · rename_i hnone
      -- an empty queue has no head to be too old
      rcases List.mem_cons.mp hp with rfl | hp
      · rw [hnone] at hhead
        cases hhead
      · exact ih h hp

/-- **What a check that is passed has seen**: it was not due, or nothing has
waited for longer than a period. -/
theorem Assembly.checkProgress_ok {σ : Type} {m m' : Assembly σ} {now : Nat}
    (h : m.checkProgress now = .ok () m') :
    (now < m.allocator.nextProgressCheck ∧ m'.allocator = m.allocator) ∨
      (m'.allocator = { m.allocator with
          nextProgressCheck := satAdd now m.allocator.config.progressCheckPeriod } ∧
        (∀ p ∈ m.allocator.ports, ∀ head, p.queue.front? = some head →
          head.age now ≤ m.allocator.config.progressCheckPeriod) ∧
        (m.allocator.config.checkGlobalProgress = true →
          now - m.allocator.lastActive ≤ m.allocator.config.progressCheckPeriod)) := by
  unfold checkProgress at h
  split at h
  -- before it is due the check does nothing
  · rename_i hearly
    cases h
    exact .inl ⟨hearly, rfl⟩
  · simp only at h
    split at h
    · cases h
    · rename_i hnone
      cases h
      obtain ⟨hinspect, hidle⟩ := Option.or_eq_none_iff.mp hnone
      refine .inr ⟨rfl, fun p hp head hhead => Allocator.inspect_eq_none hinspect hp hhead,
        fun hglobal => ?_⟩
      unfold Allocator.idleFailure? at hidle
      split at hidle
      · cases hidle
      · rename_i hactive
        -- no failure was raised, so the allocator was not idle for too long
        by_contra hlong
        refine hactive ?_
        rw [Bool.and_eq_true]
        exact ⟨hglobal, decide_eq_true (Nat.lt_of_not_le hlong)⟩

/-! ### Clocks -/

/-- When an event happened that may move a stamp or the time of the last
activity. -/
def Event.acts? : Event → Option Nat
  | submitted now .. | performed now .. | answered now .. | turned now _ => some now
  | _ => none

theorem Event.acts?_of_arrivals {port t : Nat} {e : Event} (h : t ∈ e.arrivals port) :
    e.acts? = some t := by
  cases e with
  | submitted now q txn result =>
    cases result with
    | error _ => cases h
    | ok taken =>
      cases taken with
      | false => cases h
      | true =>
        have hmem : t ∈ if q = port then [now] else [] := h
        split at hmem
        · rw [List.mem_singleton.mp hmem]
          rfl
        · cases hmem
  | _ => cases h

theorem Event.acts?_of_departures {port t : Nat} {e : Event} (h : t ∈ e.departures port) :
    e.acts? = some t := by
  cases e with
  | turned now result =>
    obtain ⟨txn, -, rfl⟩ := List.mem_map.mp h
    rfl
  | _ => cases h

theorem Relays.clocks {a b : Allocator} (h : Relays a b) :
    b.nextProgressCheck = a.nextProgressCheck ∧ b.lastActive = a.lastActive := by
  obtain ⟨_, _, rfl⟩ := h.frame
  exact ⟨rfl, rfl⟩

section Genuine

variable {σ : Type} [Requestors σ] [Backend σ]

/-- A turn moves the time of the last activity at most, to the current cycle. -/
theorem Assembly.Turned.clocks {m m' : Assembly σ} {now : Nat} {turn : Turn}
    (h : Assembly.Turned m now (.ok turn) m') :
    m'.allocator.nextProgressCheck = m.allocator.nextProgressCheck ∧
      (m'.allocator.lastActive = m.allocator.lastActive ∨ m'.allocator.lastActive = now) := by
  cases h with
  | idle _ => exact ⟨rfl, .inl rfl⟩
  | parked _ _ ha _ _ _ =>
    obtain ⟨p, stats, -, ha⟩ := ha
    rw [ha]
    exact ⟨rfl, .inl rfl⟩
  | @served m₁ _ granted head request _ hcleared _ hserved =>
    obtain ⟨c, table, ports, stats, -, -, -, ha₁⟩ := hcleared.allocator
    have hnext : m₁.allocator.nextProgressCheck = m.allocator.nextProgressCheck := by rw [ha₁]
    have hactive : m₁.allocator.lastActive = m.allocator.lastActive := by rw [ha₁]
    cases hserved with
    -- a refused offer is no activity, a request taken or folded is
    | refused h =>
      obtain ⟨stats, ha⟩ := h.allocator
      rw [ha]
      exact ⟨hnext, .inl hactive⟩
    | sent h _ =>
      obtain ⟨ports, stats, locks, -, ha⟩ := h.allocator
      rw [ha]
      exact ⟨hnext, .inr rfl⟩
    | folded h _ =>
      obtain ⟨pending, merged, ports, stats, -, -, ha⟩ := h.allocator
      rw [ha]
      exact ⟨hnext, .inr rfl⟩

/-- **Only a check moves the time of the next one**, and an event moves the time
of the last activity to its own cycle at most. -/
theorem Moment.Genuine.clocks {x : Moment σ} (h : x.Genuine) (hok : x.event.isBroken = false)
    (hpass : x.event.failsTick = false) (hcheck : ∀ now result, x.event ≠ .checked now result) :
    x.after.allocator.nextProgressCheck = x.before.allocator.nextProgressCheck ∧
      (x.after.allocator.lastActive = x.before.allocator.lastActive ∨
        x.event.acts? = some x.after.allocator.lastActive) := by
  have heffect := effect_of_genuine h hok
  obtain ⟨m, e, m'⟩ := x
  simp only at heffect hok hpass hcheck ⊢
  cases heffect with
  | submitted ha _ _ =>
    obtain ⟨ports, stats, ha⟩ := ha
    rw [ha]
    exact ⟨rfl, .inl rfl⟩
  | @received now response taken ha _ =>
    have hrelays := (Relays.received (a := m.allocator) now response .refl).clocks
    rw [ha] at hrelays
    exact ⟨hrelays.1, .inl hrelays.2⟩
  | resumed ha _ =>
    rw [ha]
    exact ⟨rfl, .inl rfl⟩
  | performed ha _ =>
    obtain ⟨stats, ha⟩ := ha
    rw [ha]
    exact ⟨rfl, .inr rfl⟩
  | rejected hsame =>
    rw [hsame]
    exact ⟨rfl, .inl rfl⟩
  | elapsed ha _ => exact ⟨ha.clocks.1, .inl ha.clocks.2⟩
  | @answered now response result _ _ _ _ _ =>
    -- the effect leaves the times open, so the answer is looked at itself
    cases h with
    | answered _ _ _ port _ =>
      cases hanswer : (m.update fun a => { a with backendPort := port }).answer now response with
      | error e m' =>
        rw [hanswer] at hpass
        cases hpass
      | ok _ m' =>
        obtain ⟨request, -, ha⟩ := Assembly.allocator_answer hanswer
        rw [Outcome.left_ok, ha]
        exact ⟨rfl, .inr rfl⟩
  | settled ha _ =>
    rw [ha]
    exact ⟨rfl, .inl rfl⟩
  | swept ha _ _ =>
    obtain ⟨ports, stats, ha⟩ := ha
    rw [ha]
    exact ⟨rfl, .inl rfl⟩
  | @turned now result _ _ hturned =>
    cases result with
    | error e => cases hpass
    | ok turn =>
      obtain ⟨hnext, hactive⟩ := hturned.clocks
      refine ⟨hnext, hactive.imp_right fun hnow => ?_⟩
      rw [hnow]
      rfl
  | checked _ _ => exact absurd rfl (hcheck _ _)

end Genuine

/-! ### A cycle ends with its check -/

namespace Assembly

variable {σ : Type} [Requestors σ] [Backend σ] {m : Assembly (Recorded σ)} {now : Nat}

omit [Requestors σ] [Backend σ] in
/-- Where pieces and those that follow go through, all of them are there. -/
theorem failureIn_follow {ms : List (Moment σ)}
    {next : Assembly (Recorded σ) → List (Moment σ)}
    (h : failureIn (follow m ms next) = none) :
    follow m ms next = ms ++ next (endOf m ms) ∧ failureIn ms = none ∧
      failureIn (next (endOf m ms)) = none := by
  cases hms : failureIn ms with
  | some e =>
    unfold follow at h
    rw [hms] at h
    exact absurd (hms.symm.trans h) (Option.some_ne_none e)
  | none =>
    have hall : follow m ms next = ms ++ next (endOf m ms) := by
      unfold follow
      rw [hms]
    rw [hall] at h
    unfold failureIn at hms h ⊢
    rw [List.findSome?_append, hms, Option.none_or] at h
    exact ⟨hall, rfl, h⟩

/-- **A cycle that goes through ends with its only check.** -/
theorem tickMoments_of_pass (hpass : TicksPass (m.tickMoments now)) :
    ∃ front, m.tickMoments now = front ++ [(endOf m front).checkMoment now] ∧
      ∀ x ∈ front, ∀ t result, x.event ≠ .checked t result := by
  have hnone : failureIn (m.tickMoments now) = none := ticksPass_iff_failureIn.mp hpass
  unfold tickMoments at hnone ⊢
  split
  · rename_i hlanes
    rw [if_pos hlanes] at hnone
    cases hnone
  · rename_i hlanes
    rw [if_neg hlanes] at hnone
    obtain ⟨hfirst, hresponses, hnone⟩ := failureIn_follow hnone
    obtain ⟨hsecond, -, -⟩ := failureIn_follow hnone
    rw [hfirst, hsecond]
    -- the check comes last, after the answers and the turns
    refine ⟨m.responseMoments now ++ (endOf m (m.responseMoments now)).issueMoments now, ?_,
      fun x hx t result => ?_⟩
    · rw [endOf_append, List.append_assoc]
    · rcases List.mem_append.mp hx with hx | hx
      · rcases mem_follow hx with hx | hx
        · obtain ⟨response, answered, hevent⟩ := answered_of_drainMoments hx
          rw [hevent]
          exact nofun
        · split at hx
          · cases hx
          · rw [List.mem_singleton.mp hx]
            exact nofun
      · rcases List.mem_cons.mp hx with rfl | hx
        · exact nofun
        · obtain ⟨turned, hevent⟩ := turned_of_turnMoments hx
          rw [hevent]
          exact nofun

end Assembly

/-! ### What the watchdog has made sure of -/

/-- A time that lies no further back than two periods, both from the next tick
and from the next check. -/
def Recent (period soon check t : Nat) : Prop :=
  soon ≤ t + 2 * period ∧ check ≤ t + 2 * period

/-- What the watchdog has made sure of in a cycle, before the tick of a cycle
that is the same or the next. -/
structure Watched (config : AllocatorConfig) (now soon : Nat) (a : Allocator) : Prop where
  /-- The settings do not change. -/
  config_eq : a.config = config
  /-- A period lasts for a cycle at least. -/
  positive : 0 < config.progressCheckPeriod
  /-- The next tick is not in the past. -/
  soon_le : now ≤ soon
  /-- The next tick is close. -/
  le_soon : soon ≤ now + 1
  /-- The next check is close. -/
  check_le : a.nextProgressCheck ≤ now + config.progressCheckPeriod
  /-- The entries of a queue are in the order of their arrival. -/
  sorted : ∀ port, (a.stampsOn port).Pairwise (· ≤ ·)
  /-- No entry comes from the future. -/
  arrived : ∀ port, ∀ t ∈ a.stampsOn port, t ≤ now
  /-- No entry is too old. -/
  recent : ∀ port, ∀ t ∈ a.stampsOn port,
    Recent config.progressCheckPeriod soon a.nextProgressCheck t
  /-- The last activity is not too long ago, if that is looked at. -/
  active : config.checkGlobalProgress = true →
    Recent config.progressCheckPeriod soon a.nextProgressCheck a.lastActive

namespace Watched

variable {config : AllocatorConfig} {now soon : Nat} {a : Allocator}

/-- The current cycle is recent. -/
theorem recent_now (h : Watched config now soon a) :
    Recent config.progressCheckPeriod soon a.nextProgressCheck now := by
  have hpositive := h.positive
  have hsoon := h.le_soon
  have hcheck := h.check_le
  unfold Recent
  omega

/-- Time passes, but not past the next tick. -/
theorem later (h : Watched config now soon a) {t : Nat} (hnow : now ≤ t) (hsoon : t ≤ soon) :
    Watched config t soon a :=
  { h with
    soon_le := hsoon
    le_soon := Nat.le_trans h.le_soon (Nat.succ_le_succ hnow)
    check_le := Nat.le_trans h.check_le (Nat.add_le_add_right hnow _)
    arrived := fun port t' ht' => Nat.le_trans (h.arrived port t' ht') hnow }

theorem of_new (hnew : Allocator.new config = .ok a) : Watched config 0 0 a := by
  have hstamps := Allocator.stampsOn_new hnew
  obtain ⟨hcheck, rfl⟩ := Allocator.eq_of_new hnew
  obtain ⟨-, -, -, -, hpositive⟩ := AllocatorConfig.of_check hcheck
  exact {
    config_eq := rfl
    positive := hpositive
    soon_le := Nat.le_refl 0
    le_soon := Nat.zero_le 1
    check_le := Nat.le_add_left _ _
    sorted := fun port => by
      rw [hstamps]
      exact .nil
    arrived := fun port => by
      rw [hstamps]
      exact List.forall_mem_nil _
    recent := fun port => by
      rw [hstamps]
      exact List.forall_mem_nil _
    active := fun _ => ⟨Nat.zero_le _, by
      show config.progressCheckPeriod ≤ 0 + 2 * config.progressCheckPeriod
      omega⟩ }

section Genuine

variable {σ : Type} [Requestors σ] [Backend σ]

/-- What a piece that is no check does to the stamps of one port. -/
theorem stamps_step {x : Moment σ} (h : Watched config now soon x.before.allocator)
    (hx : x.Genuine)
    (hok : x.event.isBroken = false) (htime : ∀ t ∈ x.event.acts?, t = now) (port : Nat) :
    (x.after.allocator.stampsOn port).Pairwise (· ≤ ·) ∧
      (∀ t ∈ x.after.allocator.stampsOn port, t ≤ now ∧
        Recent config.progressCheckPeriod soon x.before.allocator.nextProgressCheck t) ∧
      ∀ wait ∈ x.waitsOn port, wait ≤ 2 * config.progressCheckPeriod := by
  by_cases hlt : port < x.before.allocator.ports.length
  · have hsorted := h.sorted port
    have hold : ∀ t ∈ x.before.allocator.stampsOn port, t ≤ now ∧
        Recent config.progressCheckPeriod soon x.before.allocator.nextProgressCheck t :=
      fun t ht => ⟨h.arrived port t ht, h.recent port t ht⟩
    have hclocked := (hx.clocked hok hlt).2
    unfold Moment.waitsOn
    simp only [Allocator.waitedAt_eq]
    generalize x.before.allocator.stampsOn port = l at hsorted hold hclocked
    generalize x.after.allocator.stampsOn port = l' at hclocked
    cases hclocked with
    | kept _ hleft =>
      rw [hleft]
      exact ⟨hsorted, hold, List.forall_mem_nil _⟩
    | @arrived _ t harrived hleft =>
      obtain rfl := htime t (Event.acts?_of_arrivals (harrived ▸ List.mem_singleton_self t))
      rw [hleft]
      refine ⟨List.pairwise_append.mpr
        ⟨hsorted, List.pairwise_singleton _ _, fun t' ht' t'' ht'' => ?_⟩,
        fun t' ht' => ?_, List.forall_mem_nil _⟩
      · rw [List.mem_singleton.mp ht'']
        exact (hold t' ht').1
      · rcases List.mem_append.mp ht' with ht' | ht'
        · exact hold t' ht'
        · rw [List.mem_singleton.mp ht']
          exact ⟨Nat.le_refl _, h.recent_now⟩
    | @left _ arrival t _ hleft =>
      obtain rfl := htime t (Event.acts?_of_departures (hleft ▸ List.mem_singleton_self t))
      have hhead := (hold arrival List.mem_cons_self).2.1
      have hsoon := h.soon_le
      rw [hleft]
      refine ⟨(List.pairwise_cons.mp hsorted).2,
        fun t' ht' => hold t' (List.mem_cons_of_mem _ ht'), fun wait hwait => ?_⟩
      rw [List.map_singleton, List.mem_singleton] at hwait
      rw [hwait]
      show t - arrival ≤ _
      omega
  · -- a port that does not exist
    have hempty : ∀ {b : Allocator}, b.ports.length = x.before.allocator.ports.length →
        b.stampsOn port = [] := fun hlength =>
      Allocator.stampsOn_of_le (Nat.le_of_not_lt fun hb => hlt (hlength ▸ hb))
    rw [hempty (hx.length_ports hok)]
    refine ⟨.nil, List.forall_mem_nil _, fun wait hwait => ?_⟩
    unfold Moment.waitsOn at hwait
    obtain ⟨t, -, rfl⟩ := List.mem_map.mp hwait
    rw [Allocator.waitedAt_eq, hempty rfl]
    exact Nat.zero_le _

/-- **A piece that is no check keeps to what the watchdog has made sure of**,
and what leaves a port in it has waited for two periods at most. -/
theorem step {x : Moment σ} (h : Watched config now soon x.before.allocator) (hx : x.Genuine)
    (hok : x.event.isBroken = false) (hpass : x.event.failsTick = false)
    (hcheck : ∀ t result, x.event ≠ .checked t result)
    (htime : ∀ t ∈ x.event.acts?, t = now) :
    Watched config now soon x.after.allocator ∧
      ∀ port, ∀ wait ∈ x.waitsOn port, wait ≤ 2 * config.progressCheckPeriod := by
  obtain ⟨hnext, hactive⟩ := hx.clocks hok hpass hcheck
  have hconfig : x.after.allocator.config = x.before.allocator.config :=
    (effect_of_genuine hx hok).booked.config_eq
  have hport := h.stamps_step hx hok htime
  refine ⟨?_, fun port => (hport port).2.2⟩
  exact {
    config_eq := hconfig.trans h.config_eq
    positive := h.positive
    soon_le := h.soon_le
    le_soon := h.le_soon
    check_le := hnext ▸ h.check_le
    sorted := fun port => (hport port).1
    arrived := fun port t ht => ((hport port).2.1 t ht).1
    recent := fun port t ht => hnext ▸ ((hport port).2.1 t ht).2
    -- the last activity is the old one, or the present tick
    active := fun hglobal => by
      rw [hnext]
      rcases hactive with hsame | hnow
      · rw [hsame]
        exact h.active hglobal
      · rw [htime _ hnow]
        exact h.recent_now }

omit [Requestors σ] [Backend σ] in
/-- **A check that is passed makes sure of it for one more cycle.** -/
theorem checked {m m' : Assembly σ} (h : Watched config now now m.allocator)
    (hcheck : m.checkProgress now = .ok () m') : Watched config now (now + 1) m'.allocator := by
  have hpositive := h.positive
  rcases Assembly.checkProgress_ok hcheck with ⟨hearly, ha⟩ | ⟨ha, hfronts, hglobal⟩
  · -- the check is not due, so it is recent enough to be after this cycle
    rw [ha]
    exact { h with
      soon_le := Nat.le_succ now
      le_soon := Nat.le_refl _
      recent := fun port t ht =>
        ⟨Nat.lt_of_lt_of_le hearly (h.recent port t ht).2, (h.recent port t ht).2⟩
      active := fun hg => ⟨Nat.lt_of_lt_of_le hearly (h.active hg).2, (h.active hg).2⟩ }
  · -- everything is young, so there is time until after the next check
    rw [h.config_eq] at ha hfronts hglobal
    have hsat : satAdd now config.progressCheckPeriod ≤ now + config.progressCheckPeriod :=
      satAdd_le_add ..
    have hyoung : ∀ t, now - t ≤ config.progressCheckPeriod →
        Recent config.progressCheckPeriod (now + 1) (satAdd now config.progressCheckPeriod) t := by
      intro t ht
      unfold Recent
      omega
    -- the front of a queue is its oldest entry
    have hage : ∀ port, ∀ t ∈ m.allocator.stampsOn port,
        now - t ≤ config.progressCheckPeriod := by
      intro port t ht
      have hsorted := h.sorted port
      cases hp : m.allocator.ports[port]? with
      | none =>
        rw [Allocator.stampsOn_of_le (List.getElem?_eq_none_iff.mp hp)] at ht
        cases ht
      | some p =>
        rw [Allocator.stampsOn_of_get? hp] at ht hsorted
        cases hentries : p.queue.entries with
        | nil =>
          rw [hentries] at ht
          cases ht
        | cons head rest =>
          rw [hentries, List.map_cons] at ht hsorted
          have hfront : p.queue.front? = some head := by
            unfold TimedQueue.front?
            rw [hentries]
            rfl
          have hhead : now - head.arrivedAt ≤ _ := hfronts p (List.mem_of_getElem? hp) head hfront
          rcases List.mem_cons.mp ht with rfl | ht
          · exact hhead
          · have hle := (List.pairwise_cons.mp hsorted).1 t ht
            omega
    have hstamps : ∀ port, m'.allocator.stampsOn port = m.allocator.stampsOn port := by
      intro port
      rw [ha]
      rfl
    rw [ha]
    rw [ha] at hstamps
    exact {
      config_eq := h.config_eq
      positive := h.positive
      soon_le := Nat.le_succ now
      le_soon := Nat.le_refl _
      check_le := hsat
      sorted := fun port => hstamps port ▸ h.sorted port
      arrived := fun port => hstamps port ▸ h.arrived port
      recent := fun port t ht => hyoung t (hage port t (hstamps port ▸ ht))
      active := fun hg => hyoung _ (hglobal hg) }

/-- Pieces without a check keep to what the watchdog has made sure of. -/
theorem pieces {m : Assembly (Recorded σ)} {ms : List (Moment σ)}
    (h : Watched config now soon m.allocator)
    (hlinked : Linked m ms) (hok : Unbroken ms) (hpass : TicksPass ms)
    (hcheck : ∀ x ∈ ms, ∀ t result, x.event ≠ .checked t result)
    (htime : ∀ x ∈ ms, ∀ t ∈ x.event.acts?, t = now) :
    Watched config now soon (endOf m ms).allocator ∧
      ∀ x ∈ ms, ∀ port, ∀ wait ∈ x.waitsOn port,
        wait ≤ 2 * config.progressCheckPeriod := by
  refine Linked.induct (P := fun pre m' => Watched config now soon m'.allocator ∧
      ∀ x ∈ pre, ∀ port, ∀ wait ∈ x.waitsOn port, wait ≤ 2 * config.progressCheckPeriod)
    (R := fun x => x.event.failsTick = false ∧ (∀ t result, x.event ≠ .checked t result) ∧
      ∀ t ∈ x.event.acts?, t = now)
    ⟨h, List.forall_mem_nil _⟩ ?_ hlinked hok fun x hx =>
    ⟨hpass x hx, hcheck x hx, htime x hx⟩
  rintro pre x ⟨hwatched, hwaits⟩ hx hokx ⟨hpassx, hcheckx, htimex⟩
  obtain ⟨hafter, hwait⟩ := hwatched.step hx hokx hpassx hcheckx htimex
  refine ⟨hafter, fun y hy => ?_⟩
  rcases List.mem_append.mp hy with hy | hy
  · exact hwaits y hy
  · rw [List.mem_singleton.mp hy]
    exact hwait

/-- **A cycle that goes through makes sure of it for the next one.** -/
theorem tick {m : Assembly (Recorded σ)} (h : Watched config now now m.allocator)
    (hpass : TicksPass (m.tickMoments now)) :
    Watched config now (now + 1) (endOf m (m.tickMoments now)).allocator ∧
      ∀ x ∈ m.tickMoments now, ∀ port, ∀ wait ∈ x.waitsOn port,
        wait ≤ 2 * config.progressCheckPeriod := by
  obtain ⟨front, hsplit, hfront⟩ := Assembly.tickMoments_of_pass hpass
  have hlinked := m.linked_tickMoments now
  have htime : ∀ x ∈ front, ∀ t ∈ x.event.acts?, t = now := by
    intro x hx t ht
    have hmem : x ∈ m.tickMoments now := hsplit ▸ List.mem_append_left _ hx
    have hpiece := Assembly.ofTick_tickMoments hmem
    generalize x.event = e at hpiece ht
    cases hpiece <;> cases ht <;> rfl
  have hpassfront : TicksPass front := fun x hx => hpass x (hsplit ▸ List.mem_append_left _ hx)
  rw [hsplit] at hlinked hpass ⊢
  obtain ⟨hbefore, hunbroken, -⟩ := hlinked.split_cons
  obtain ⟨hwatched, hwaits⟩ := h.pieces hbefore hunbroken hpassfront hfront htime
  rw [endOf_append]
  -- the check comes last
  generalize endOf m front = m₁ at hwatched hpass ⊢
  have hcheck : m₁.checkProgress now = .ok () (m₁.checkProgress now).left := by
    have hlast := hpass (m₁.checkMoment now) (List.mem_append_right _ (List.mem_singleton_self _))
    unfold Assembly.checkMoment at hlast
    cases hprogress : m₁.checkProgress now with
    | ok _ m₂ => rfl
    | error e m₂ =>
      rw [hprogress] at hlast
      cases hlast
  refine ⟨hwatched.checked hcheck, fun x hx => ?_⟩
  rcases List.mem_append.mp hx with hx | hx
  · exact hwaits x hx
  · rw [List.mem_singleton.mp hx]
    intro port wait hwait
    cases hwait

end Genuine

end Watched

/-! ### Paced runs -/

/-- Calls in which every cycle has one tick, from the cycle of the last call and
that of the next tick on.  A submission and an access are made in the current
cycle, which is that of the last tick or of the next one. -/
def Paced {σ : Type} : Nat → Nat → List (Call σ) → Prop
  | _, _, [] => True
  | _, soon, .tick t :: rest => t = soon ∧ Paced soon (soon + 1) rest
  | now, soon, .submit t _ _ :: rest => (now ≤ t ∧ t ≤ soon) ∧ Paced t soon rest
  | now, soon, .functional t _ _ :: rest => (now ≤ t ∧ t ≤ soon) ∧ Paced t soon rest
  | now, soon, .receive _ _ :: rest => Paced now soon rest
  | now, soon, .backendRetry :: rest => Paced now soon rest
  | now, soon, .elapse _ :: rest => Paced now soon rest

instance decidablePaced {σ : Type} :
    (now soon : Nat) → (calls : List (Call σ)) → Decidable (Paced now soon calls)
  | _, _, [] => isTrue trivial
  | _, soon, .tick t :: rest =>
    have := decidablePaced soon (soon + 1) rest
    inferInstanceAs (Decidable (t = soon ∧ Paced soon (soon + 1) rest))
  | now, soon, .submit t _ _ :: rest =>
    have := decidablePaced t soon rest
    inferInstanceAs (Decidable ((now ≤ t ∧ t ≤ soon) ∧ Paced t soon rest))
  | now, soon, .functional t _ _ :: rest =>
    have := decidablePaced t soon rest
    inferInstanceAs (Decidable ((now ≤ t ∧ t ≤ soon) ∧ Paced t soon rest))
  | now, soon, .receive _ _ :: rest => decidablePaced now soon rest
  | now, soon, .backendRetry :: rest => decidablePaced now soon rest
  | now, soon, .elapse _ :: rest => decidablePaced now soon rest

section Runs

variable {σ : Type} [Requestors σ] [Backend σ] {config : AllocatorConfig} {now soon : Nat}

/-- **A call keeps to what the watchdog has made sure of.** -/
theorem Watched.call {c : Call σ} {rest : List (Call σ)} {m : Assembly (Recorded σ)}
    (h : Watched config now soon m.allocator) (hpaced : Paced now soon (c :: rest))
    (hok : Unbroken (c.moments m)) (hpass : TicksPass (c.moments m)) :
    (∃ now' soon', Watched config now' soon' (endOf m (c.moments m)).allocator ∧
        Paced now' soon' rest ∧ ∀ t, c = .tick t → now' = t ∧ soon' = t + 1) ∧
      ∀ x ∈ c.moments m, ∀ port, ∀ wait ∈ x.waitsOn port,
      wait ≤ 2 * config.progressCheckPeriod := by
  -- calls other than ticks are one piece, made in a cycle that is known where it matters
  have hone : ∀ {t : Nat} {x : Moment σ},
      Watched config t soon m.allocator → c.moments m = [x] →
      (∀ t' result, x.event ≠ .checked t' result) → (∀ t' ∈ x.event.acts?, t' = t) →
      Watched config t soon (endOf m (c.moments m)).allocator ∧
        ∀ x ∈ c.moments m, ∀ port, ∀ wait ∈ x.waitsOn port,
          wait ≤ 2 * config.progressCheckPeriod := by
    intro t x hwatched hx hcheck htime
    refine hwatched.pieces (c.linked_moments m) hok hpass ?_ ?_ <;> rw [hx]
    · exact List.forall_mem_singleton.mpr hcheck
    · exact List.forall_mem_singleton.mpr htime
  cases c with
  | tick t =>
    obtain ⟨rfl, hrest⟩ := hpaced
    obtain ⟨hafter, hwaits⟩ := (h.later h.soon_le (Nat.le_refl _)).tick hpass
    refine ⟨⟨t, t + 1, hafter, hrest, fun t' ht' => ?_⟩, hwaits⟩
    cases ht'
    exact ⟨rfl, rfl⟩
  | submit t port txn =>
    obtain ⟨⟨hnow, hsoon⟩, hrest⟩ := hpaced
    obtain ⟨hafter, hwaits⟩ := hone (h.later hnow hsoon) rfl nofun fun t' ht' =>
      (Option.some.inj ht').symm
    exact ⟨⟨t, soon, hafter, hrest, nofun⟩, hwaits⟩
  | functional t port txn =>
    obtain ⟨⟨hnow, hsoon⟩, hrest⟩ := hpaced
    obtain ⟨hafter, hwaits⟩ := hone (h.later hnow hsoon) rfl nofun fun t' ht' =>
      (Option.some.inj ht').symm
    exact ⟨⟨t, soon, hafter, hrest, nofun⟩, hwaits⟩
  | receive t response =>
    obtain ⟨hafter, hwaits⟩ := hone h rfl nofun nofun
    exact ⟨⟨now, soon, hafter, hpaced, nofun⟩, hwaits⟩
  | backendRetry =>
    obtain ⟨hafter, hwaits⟩ := hone h rfl nofun nofun
    exact ⟨⟨now, soon, hafter, hpaced, nofun⟩, hwaits⟩
  | elapse f =>
    obtain ⟨hafter, hwaits⟩ := hone h rfl nofun nofun
    exact ⟨⟨now, soon, hafter, hpaced, nofun⟩, hwaits⟩

/-- **A paced run keeps to what the watchdog has made sure of.** -/
theorem Watched.run {calls : List (Call σ)} {m : Assembly (Recorded σ)}
    (h : Watched config now soon m.allocator) {later : List (Call σ)}
    (hpaced : Paced now soon (calls ++ later))
    (hok : Unbroken (run calls m)) (hpass : TicksPass (MemPort.run calls m)) :
    (∃ now' soon', Watched config now' soon' (endOf m (MemPort.run calls m)).allocator ∧
        Paced now' soon' later) ∧
      ∀ x ∈ MemPort.run calls m, ∀ port, ∀ wait ∈ x.waitsOn port,
        wait ≤ 2 * config.progressCheckPeriod := by
  induction calls generalizing now soon m with
  | nil => exact ⟨⟨now, soon, h, hpaced⟩, List.forall_mem_nil _⟩
  | cons c rest ih =>
    have hfirst := (prefix_runBy_cons Call.moments c rest m).subset
    have hokfirst : Unbroken (c.moments m) := fun x hx => hok x (hfirst hx)
    -- call by call, each one leaving the allocator watched for the next
    have hrun : MemPort.run (c :: rest) m =
        c.moments m ++ MemPort.run rest (endOf m (c.moments m)) := runBy_cons hokfirst rest
    rw [hrun] at hok hpass ⊢
    obtain ⟨⟨now', soon', hafter, hpaced', -⟩, hwaits⟩ :=
      h.call hpaced hokfirst fun x hx => hpass x (List.mem_append_left _ hx)
    obtain ⟨hend, hrest⟩ := ih hafter hpaced' (fun x hx => hok x (List.mem_append_right _ hx))
      fun x hx => hpass x (List.mem_append_right _ hx)
    rw [endOf_append]
    refine ⟨hend, fun x hx => ?_⟩
    rcases List.mem_append.mp hx with hx | hx
    · exact hwaits x hx
    · exact hrest x hx

/-- **The watchdog bounds every wait.**  Where every cycle has one tick,
submissions and accesses are made in the current cycle and no cycle fails:

* every transaction that leaves its port has waited for two periods at most;
* after each tick every transaction that is queued, wherever it stands and
  whether or not its port is parked, is less than two periods old;
* after each tick something has happened less than two periods ago, if the
  watchdog looks at that. -/
theorem waits_bounded {config : AllocatorConfig} {a : Allocator}
    (hnew : Allocator.new config = .ok a)
    (s : σ) (j : Journal) {calls : List (Call σ)} (hpaced : Paced 0 0 calls)
    (hok : Unbroken (run calls ⟨a, .start s, j⟩))
    (hpass : TicksPass (run calls ⟨a, .start s, j⟩)) :
    (∀ port < config.numPorts,
      ∀ wait ∈ waitsOn port ((run calls ⟨a, .start s, j⟩).map (·.event)),
      wait ≤ 2 * config.progressCheckPeriod) ∧
    ∀ earlier now, earlier ++ [.tick now] <+: calls →
      let after :=
        (endOf ⟨a, .start s, j⟩ (run (earlier ++ [.tick now]) ⟨a, .start s, j⟩)).allocator
      (∀ p ∈ after.ports, ∀ e ∈ p.queue.entries,
        e.age now < 2 * config.progressCheckPeriod) ∧
        (config.checkGlobalProgress = true →
          now - after.lastActive < 2 * config.progressCheckPeriod) := by
  have hstart : Watched config 0 0 (⟨a, .start s, j⟩ : Assembly (Recorded σ)).allocator :=
    .of_new hnew
  generalize hm : (⟨a, .start s, j⟩ : Assembly (Recorded σ)) = m at hok hpass hstart ⊢
  have hports : m.allocator.ports.length = config.numPorts := by
    rw [← hm, (Allocator.eq_of_new hnew).2]
    exact (List.length_map _).trans List.length_range
  have hstamps : ∀ port, m.allocator.stampsOn port = [] :=
    fun port => hm ▸ Allocator.stampsOn_new hnew port
  constructor
  · intro port hport wait hwait
    have hlinked := linked_run calls m
    rw [(hlinked.clock hok (hports ▸ hport) (hstamps port)).2.2] at hwait
    obtain ⟨x, hx, hwait⟩ := List.mem_flatMap.mp hwait
    rw [← List.append_nil calls] at hpaced
    exact (hstart.run hpaced hok hpass).2 x hx port wait hwait
  · rintro earlier now ⟨later, rfl⟩
    -- up to the tick, and the tick
    rw [List.append_assoc] at hpaced
    have hsub := (prefix_runBy_append Call.moments (earlier ++ [.tick now]) later m).subset
    have hokticked : Unbroken (run (earlier ++ [.tick now]) m) := fun x hx => hok x (hsub hx)
    have hpassticked : TicksPass (run (earlier ++ [.tick now]) m) := fun x hx => hpass x (hsub hx)
    have hearlier := (prefix_runBy_append Call.moments earlier [.tick now] m).subset
    have hokearlier : Unbroken (run earlier m) := fun x hx => hokticked x (hearlier hx)
    have hsplit : run (earlier ++ [.tick now]) m =
        run earlier m ++ run [.tick now] (endOf m (run earlier m)) := runBy_append hokearlier _
    obtain ⟨⟨now', soon', hbefore, htick⟩, -⟩ :=
      hstart.run hpaced hokearlier fun x hx => hpassticked x (hearlier hx)
    have hlast : run [.tick now] (endOf m (run earlier m)) =
        (endOf m (run earlier m)).tickMoments now := by
      refine (runBy_cons (fun x hx => ?_) []).trans (List.append_nil _)
      exact hokticked x (hsplit ▸ List.mem_append_right _ ((prefix_runBy_cons _ _ _ _).subset hx))
    rw [hsplit, hlast] at hokticked hpassticked ⊢
    rw [endOf_append]
    obtain ⟨⟨t, soon, hafter, -, hnow⟩, -⟩ := hbefore.call htick
      (fun x hx => hokticked x (List.mem_append_right _ hx))
      fun x hx => hpassticked x (List.mem_append_right _ hx)
    obtain ⟨ht, hsoon⟩ := hnow now rfl
    rw [ht, hsoon] at hafter
    have hpositive := hafter.positive
    refine ⟨fun p hp e he => ?_, fun hglobal => ?_⟩
    · obtain ⟨port, hport, hget⟩ := List.mem_iff_getElem.mp hp
      have hget : _ = some p := (List.getElem?_eq_getElem hport).trans (congrArg some hget)
      have hrecent := (hafter.recent port e.arrivedAt
        (Allocator.stampsOn_of_get? hget ▸ List.mem_map_of_mem he)).1
      unfold Stamped.age
      omega
    · have hrecent : now + 1 ≤
          (endOf _ ((endOf m (run earlier m)).tickMoments now)).allocator.lastActive +
            2 * config.progressCheckPeriod := (hafter.active hglobal).1
      omega

end Runs

/-- A load is answered two cycles after it was submitted, and another one comes
later. -/
def pacedLoads : List (Call (Lanes × EchoMemory)) :=
  [.submit 0 0 (.load .read 7 64 4), .tick 0, .tick 1,
    .receive 2 ⟨0, List.replicate 64 5, true⟩, .tick 2,
    .submit 3 1 (.load .read 8 128 4), .tick 3]

/-- Where the two lanes begin, with a watchdog that looks every other cycle. -/
def pacedLoadsStart : Assembly (Recorded (Lanes × EchoMemory)) :=
  ⟨.ofConfig {
      numPorts := 2, requestLatency := 1, progressCheckPeriod := 2, checkGlobalProgress := true },
    .start (Lanes.plain 2, EchoMemory.new false), .start .warn⟩

/-- The first load left its port after one cycle, and the second one is young. -/
theorem waits_bounded_pacedLoads :
    waitsOn 0 ((run pacedLoads pacedLoadsStart).map (·.event)) = [1] ∧
      (∀ wait ∈ waitsOn 0 ((run pacedLoads pacedLoadsStart).map (·.event)), wait ≤ 2 * 2) ∧
      (∀ p ∈ (endOf pacedLoadsStart (run pacedLoads pacedLoadsStart)).allocator.ports,
        ∀ e ∈ p.queue.entries, e.age 3 < 2 * 2) ∧
      3 - (endOf pacedLoadsStart (run pacedLoads pacedLoadsStart)).allocator.lastActive <
        2 * 2 := by
  have hnew : Allocator.new {
      numPorts := 2, requestLatency := 1, progressCheckPeriod := 2, checkGlobalProgress := true } =
      .ok pacedLoadsStart.allocator := by rfl
  obtain ⟨hwaits, hticks⟩ :=
    waits_bounded hnew (Lanes.plain 2, EchoMemory.new false) (.start .warn)
    (by decide : Paced 0 0 pacedLoads) (by decide +kernel) (by decide +kernel)
  obtain ⟨hyoung, hactive⟩ := hticks (pacedLoads.take 6) 3 List.prefix_rfl
  exact ⟨by decide +kernel, hwaits 0 (by decide), hyoung, hactive rfl⟩

end MemPort
