import MemPort.TimedQueue

/-!
# Pipelines without bubbles

A pipelined queue is used once a cycle: an entry may arrive at the start of the
cycle, and the head leaves at its end if it is ready.  Used like that it is a
delay line.  Every entry is taken, and it leaves as many cycles after it has
arrived as the queue has stages, whatever arrives before it and after it.

The invariant is that a queue of `n` stages holds, at the start of a cycle, what
has arrived in the last `n` cycles.  So there is room for one more; and what
then stands at the front is ready exactly if it arrived `n` cycles ago, as all
that is behind it is younger.

## Main definitions

* `TimedQueue.cycle` — one cycle: an arrival, and then a departure.
* `TimedQueue.before` — the queue at the start of a cycle.
* `inTransit` — what arrives in some consecutive cycles.

## Main results

* `TimedQueue.carries_cycle` — what a cycle keeps.
* `pipeline_exact` — every entry is taken, and leaves after as many cycles as
  there are stages.

## References

`SPEC_FULL.md`, section 3: a queue has room for its latency and one more entry;
section 10.1.
-/

namespace MemPort

variable {α : Type}

/-! ### Cycles -/

/-- What happens at the two ends of a queue in a cycle. -/
structure Passage (α : Type) where
  /-- Whether there was room for what arrived. -/
  taken : Bool
  /-- The entry that left. -/
  left : Option (Stamped α)
  deriving DecidableEq, Repr

namespace TimedQueue

/-- At most one entry arrives now.  The result says whether there was room. -/
def arrive (q : TimedQueue α) (now : Nat) : Option α → Bool × TimedQueue α
  | none => (true, q)
  | some payload =>
      match q.push? now payload with
      | none => (false, q)
      | some q' => (true, q')

/-- The head leaves, if it is ready. -/
def depart (q : TimedQueue α) (now : Nat) : Option (Stamped α) × TimedQueue α :=
  match q.pop? now with
  | none => (none, q)
  | some (e, q') => (some e, q')

/-- A cycle: an entry may arrive at its start, and the head leaves at its end if
it is ready. -/
def cycle (q : TimedQueue α) (now : Nat) (arrival : Option α) : Passage α × TimedQueue α :=
  let arrived := q.arrive now arrival
  let departed := arrived.2.depart now
  (⟨arrived.1, departed.1⟩, departed.2)

/-- The queue at the start of a cycle, where the first cycle is number zero. -/
def before (q : TimedQueue α) (arrivals : Nat → Option α) : Nat → TimedQueue α
  | 0 => q
  | now + 1 => ((q.before arrivals now).cycle now (arrivals now)).2

end TimedQueue

/-! ### What arrives -/

/-- What arrives from one cycle on and before another, oldest first. -/
def inTransit (arrivals : Nat → Option α) (first stop : Nat) : List (Stamped α) :=
  (List.range' first (stop - first)).filterMap fun now => (arrivals now).map (Stamped.mk now)

section Transit

variable {arrivals : Nat → Option α} {first stop : Nat}

theorem mem_inTransit {e : Stamped α} : e ∈ inTransit arrivals first stop ↔
    first ≤ e.arrivedAt ∧ e.arrivedAt < stop ∧ arrivals e.arrivedAt = some e.payload := by
  unfold inTransit
  rw [List.mem_filterMap]
  constructor
  · rintro ⟨now, hnow, he⟩
    obtain ⟨payload, hpayload, rfl⟩ := Option.map_eq_some_iff.mp he
    rw [List.mem_range'_1] at hnow
    exact ⟨hnow.1, by simp only; omega, hpayload⟩
  · rintro ⟨hfirst, hstop, he⟩
    exact ⟨e.arrivedAt,
      List.mem_range'_1.mpr ⟨hfirst, by omega⟩, by rw [he, Option.map_some]⟩

theorem length_inTransit_le (arrivals : Nat → Option α) (first stop : Nat) :
    (inTransit arrivals first stop).length ≤ stop - first := by
  unfold inTransit
  exact Nat.le_trans (List.length_filterMap_le _ _) (Nat.le_of_eq List.length_range')

/-- One cycle more. -/
theorem inTransit_succ (h : first ≤ stop) : inTransit arrivals first (stop + 1) =
    inTransit arrivals first stop ++ ((arrivals stop).map (Stamped.mk stop)).toList := by
  have hlast : first + 1 * (stop - first) = stop := by omega
  unfold inTransit
  rw [Nat.succ_sub h, List.range'_concat, hlast, List.filterMap_append, List.filterMap_cons]
  cases arrivals stop with
  | none => rfl
  | some a => rfl

/-- What arrives in the first cycle is the oldest. -/
theorem inTransit_eq_append (h : first < stop) : inTransit arrivals first stop =
    ((arrivals first).map (Stamped.mk first)).toList ++ inTransit arrivals (first + 1) stop := by
  unfold inTransit
  rw [show stop - first = (stop - (first + 1)) + 1 by omega, List.range'_succ, List.filterMap_cons]
  cases arrivals first with
  | none => rfl
  | some a => rfl

end Transit

/-! ### What a cycle keeps -/

namespace TimedQueue

/-- A pipeline of some stages that holds certain entries. -/
structure Carries (q : TimedQueue α) (stages : Nat) (es : List (Stamped α)) : Prop where
  /-- An entry is hidden for as many cycles as there are stages. -/
  latency_eq : q.latency = stages
  /-- There is a slot for every stage, and one more. -/
  capacity_eq : q.capacity = stages + 1
  /-- These are the entries. -/
  entries_eq : q.entries = es

variable {q : TimedQueue α} {stages now : Nat} {e : Stamped α} {es : List (Stamped α)}

/-- Where no stage is used twice, there is room for an entry. -/
theorem Carries.arrive (h : q.Carries stages es) (now : Nat) (hroom : es.length ≤ stages)
    (arrival : Option α) :
    (q.arrive now arrival).1 = true ∧
      (q.arrive now arrival).2.Carries stages (es ++ (arrival.map (Stamped.mk now)).toList) := by
  cases arrival with
  | none =>
    exact ⟨rfl, h.latency_eq, h.capacity_eq, h.entries_eq.trans (List.append_nil es).symm⟩
  | some payload =>
    have hopen : ¬ q.isFull = true := by
      rw [isFull_iff, length, h.entries_eq, h.capacity_eq]
      omega
    obtain ⟨q', hpush⟩ := exists_push? hopen now payload
    obtain ⟨hentries, hlatency, hcapacity⟩ := entries_push? hpush
    unfold TimedQueue.arrive
    simp only [hpush]
    refine ⟨trivial, hlatency.trans h.latency_eq, hcapacity.trans h.capacity_eq, ?_⟩
    rw [hentries, h.entries_eq]
    rfl

/-- A head that has arrived as many cycles ago as there are stages leaves. -/
theorem Carries.depart_of_due (h : q.Carries stages (e :: es))
    (hdue : e.arrivedAt + stages = now) :
    (q.depart now).1 = some e ∧ (q.depart now).2.Carries stages es := by
  have hready : q.isHeadReady now = true := by
    unfold isHeadReady front? Stamped.isReady
    rw [h.entries_eq, h.latency_eq, List.head?_cons, Option.any_some, decide_eq_true_eq, ← hdue]
    exact satAdd_le_add _ _
  rw [← isSome_pop?] at hready
  obtain ⟨⟨e', q'⟩, hpop⟩ := Option.isSome_iff_exists.mp hready
  obtain ⟨hentries, -, hlatency, hcapacity⟩ := entries_pop? hpop
  rw [h.entries_eq, List.cons.injEq] at hentries
  unfold depart
  simp only [hpop]
  exact ⟨by rw [hentries.1], hlatency.trans h.latency_eq, hcapacity.trans h.capacity_eq,
    hentries.2.symm⟩

/-- Nothing leaves where all entries have arrived later. -/
theorem Carries.depart_of_young (h : q.Carries stages es)
    (hyoung : ∀ e ∈ es, now < e.arrivedAt + stages ∧ e.arrivedAt + stages ≤ maxWord) :
    q.depart now = (none, q) := by
  have hpop : q.pop? now = none := by
    cases hpop : q.pop? now with
    | none => rfl
    | some p =>
      obtain ⟨e, q'⟩ := p
      obtain ⟨hentries, hready, -⟩ := entries_pop? hpop
      rw [h.entries_eq] at hentries
      have he := hyoung e (hentries ▸ List.mem_cons_self)
      unfold Stamped.isReady at hready
      rw [decide_eq_true_eq, h.latency_eq, satAdd_eq_add he.2] at hready
      omega
  unfold depart
  rw [hpop]

variable {arrivals : Nat → Option α}

/-- **What a cycle keeps**: a pipeline holds what has arrived in as many cycles
as it has stages.  In the cycle it takes what arrives, and gives up what arrived
that many cycles ago. -/
theorem carries_cycle (h : q.Carries stages (inTransit arrivals (now - stages) now))
    (hword : now + stages ≤ maxWord) :
    (q.cycle now (arrivals now)).1.taken = true ∧
      (∀ e, (q.cycle now (arrivals now)).1.left = some e ↔
        e.arrivedAt + stages = now ∧ arrivals e.arrivedAt = some e.payload) ∧
      (q.cycle now (arrivals now)).2.Carries stages
        (inTransit arrivals (now + 1 - stages) (now + 1)) := by
  have hroom : (inTransit arrivals (now - stages) now).length ≤ stages := by
    have := length_inTransit_le arrivals (now - stages) now
    omega
  obtain ⟨htaken, hcarries⟩ := h.arrive now hroom (arrivals now)
  rw [← inTransit_succ (Nat.sub_le _ _)] at hcarries
  refine ⟨htaken, ?_⟩
  unfold cycle
  simp only
  generalize (q.arrive now (arrivals now)).2 = q at hcarries ⊢
  -- all that has arrived later than the entry that is due is still hidden
  have hyoung : ∀ first, now < first + stages → ∀ e ∈ inTransit arrivals first (now + 1),
      now < e.arrivedAt + stages ∧ e.arrivedAt + stages ≤ maxWord := by
    intro first hfirst e he
    obtain ⟨hge, hlt, -⟩ := mem_inTransit.mp he
    omega
  by_cases hfull : stages ≤ now
  · have hsplit : inTransit arrivals (now - stages) (now + 1) = _ := inTransit_eq_append (by omega)
    rw [show now - stages + 1 = now + 1 - stages by omega] at hsplit
    cases hdue : arrivals (now - stages) with
    | none =>
      rw [hsplit, hdue] at hcarries
      rw [hcarries.depart_of_young (hyoung _ (by omega))]
      refine ⟨fun e => ⟨nofun, ?_⟩, hcarries⟩
      rintro ⟨he, hpayload⟩
      rw [show e.arrivedAt = now - stages by omega, hdue] at hpayload
      cases hpayload
    | some payload =>
      rw [hsplit, hdue] at hcarries
      obtain ⟨hleft, hrest⟩ := hcarries.depart_of_due (Nat.sub_add_cancel hfull)
      refine ⟨fun e => ?_, hrest⟩
      rw [hleft, Option.some.injEq]
      constructor
      · rintro rfl
        exact ⟨by simp only; omega, hdue⟩
      · rintro ⟨he, hpayload⟩
        obtain ⟨arrivedAt, payload'⟩ := e
        simp only at he hpayload
        obtain rfl : arrivedAt = now - stages := by omega
        rw [hdue, Option.some.injEq] at hpayload
        rw [hpayload]
  · -- nothing has had the time to pass all stages
    rw [show now - stages = 0 by omega] at hcarries
    rw [hcarries.depart_of_young (hyoung 0 (by omega)), show now + 1 - stages = 0 by omega]
    refine ⟨fun e => ⟨nofun, ?_⟩, hcarries⟩
    rintro ⟨he, -⟩
    omega

theorem carries_before (stages : Nat) (arrivals : Nat → Option α) {now : Nat}
    (hword : now + stages ≤ maxWord) :
    ((ofConfig (.pipelined stages)).before arrivals now).Carries stages
      (inTransit arrivals (now - stages) now) := by
  induction now with
  | zero => exact ⟨rfl, rfl, by rw [inTransit, Nat.zero_sub]; rfl⟩
  | succ now ih => exact (carries_cycle (ih (by omega)) (by omega)).2.2

end TimedQueue

/-- **A pipelined queue has no bubbles.**  Take a queue for a pipeline of any
number of stages, which is what `new` makes if the storage suffices for it.  In
every cycle at most one entry arrives, and then the head leaves if it is ready.
As long as the number of the cycle and that of the stages add up to a word, what
arrives is taken, and an entry leaves exactly if it arrived as many cycles ago
as there are stages. -/
theorem pipeline_exact (stages : Nat) (arrivals : Nat → Option α) :
    (TimedQueue.new (.pipelined stages) : Except Assertion (TimedQueue α)) =
        (if storageSlots ≤ stages + 1 then .error .storageLimit
          else .ok (.ofConfig (.pipelined stages))) ∧
      ∀ now, now + stages ≤ maxWord →
        let q := (TimedQueue.ofConfig (.pipelined stages)).before arrivals now
        (q.cycle now (arrivals now)).1.taken = true ∧
          ∀ e, (q.cycle now (arrivals now)).1.left = some e ↔
            e.arrivedAt + stages = now ∧ arrivals e.arrivedAt = some e.payload := by
  refine ⟨if_neg (Nat.succ_ne_zero stages), fun now hword => ?_⟩
  · obtain ⟨htaken, hleft, -⟩ :=
      TimedQueue.carries_cycle (TimedQueue.carries_before stages arrivals hword) hword
    exact ⟨htaken, hleft⟩

/-- Something arrives in two cycles out of three: their numbers. -/
def twoOfThree (now : Nat) : Option Nat := if now % 3 = 1 then none else some now

/-- With two stages, what arrived in cycle 3 leaves in cycle 5, while one more
entry is taken; and nothing leaves in the next cycle, as nothing arrived in
cycle 4. -/
theorem pipeline_exact_twoOfThree :
    let passage := fun now =>
      (((TimedQueue.ofConfig (.pipelined 2)).before twoOfThree now).cycle now (twoOfThree now)).1
    (passage 5).taken = true ∧ (passage 5).left = some ⟨3, 3⟩ ∧
    (passage 6).left = none := by
  obtain ⟨-, hcycles⟩ := pipeline_exact 2 twoOfThree
  obtain ⟨htaken, hleft⟩ := hcycles 5 (by decide)
  obtain ⟨-, hnone⟩ := hcycles 6 (by decide)
  refine ⟨htaken, (hleft ⟨3, 3⟩).mpr ⟨rfl, rfl⟩,
    Option.eq_none_iff_forall_ne_some.mpr fun e he => ?_⟩
  obtain ⟨hdue, harrived⟩ := (hnone e).mp he
  rw [Nat.add_right_cancel (m := 2) (k := 4) hdue] at harrived
  cases harrived

end MemPort
