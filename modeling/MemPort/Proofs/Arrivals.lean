import MemPort.Proofs.Retries

/-!
# How long transactions wait

A queue stamps every transaction with the cycle of its arrival, and gives
transactions up in the order in which they came.  So the waits of a port can be
read off a run without looking into any queue: the transaction that leaves a
port as the `k`-th is the one that was accepted on it as the `k`-th, and its
wait is the time between the two events (`waitsOn`).  The other way round, the
stamps that are left in a queue are the cycles of the arrivals that have not
been matched by a departure.

## Main definitions

* `Allocator.stampsOn` — when the transactions queued on a port arrived.
* `arrivalsOn`, `departuresOn` — when transactions were accepted on a port,
  and when they left it.
* `waitsOn`, `waitsIn` — how long the transactions waited that left a port, or
  any port.

## Main results

* `Moment.Genuine.clocked` — what a piece of a run does to the stamps of a
  port.
* `Linked.clock` — the stamps and the waits of a port after a run.
* `Linked.total_waitsIn` — the waits of all ports together.

## References

`SPEC_FULL.md`, section 10.6, item 3: the waits of the transactions that left
their ports.
-/

namespace MemPort

/-- When the transactions queued on a port arrived, oldest first. -/
def Allocator.stampsOn (a : Allocator) (port : Nat) : List Nat :=
  (a.ports[port]?.map fun p => p.queue.entries.map (·.arrivedAt)).getD []

namespace Allocator

variable {a : Allocator} {port : Nat}

theorem stampsOn_of_get? {p : RequestorPort} (h : a.ports[port]? = some p) :
    a.stampsOn port = p.queue.entries.map (·.arrivedAt) := by
  unfold stampsOn
  rw [h]
  rfl

/-- A port that does not exist holds nothing. -/
theorem stampsOn_of_le (h : a.ports.length ≤ port) : a.stampsOn port = [] := by
  unfold stampsOn
  rw [List.getElem?_eq_none h]
  rfl

/-- The oldest transaction of a port has waited since the first stamp. -/
theorem waitedAt_eq (a : Allocator) (now port : Nat) :
    a.waitedAt now port = ((a.stampsOn port).head?.map (now - ·)).getD 0 := by
  unfold waitedAt stampsOn
  cases a.ports[port]? with
  | none => rfl
  | some p =>
    rw [Option.bind_some, Option.map_some, Option.getD_some, List.head?_map, Option.map_map]
    rfl

theorem stampsOn_new {config : AllocatorConfig} (hnew : Allocator.new config = .ok a) (port : Nat) :
    a.stampsOn port = [] := by
  unfold stampsOn
  cases hp : a.ports[port]? with
  | none => rfl
  | some p =>
    rw [(Allocator.eq_of_new hnew).2] at hp
    unfold Allocator.ofConfig at hp
    simp only at hp
    rw [List.getElem?_map] at hp
    obtain ⟨q, -, rfl⟩ := Option.map_eq_some_iff.mp hp
    rfl

end Allocator

/-! ### Arrivals and departures -/

namespace Event

/-- The cycle in which a transaction was accepted on a port. -/
def arrivals (port : Nat) : Event → List Nat
  | submitted now q _ (.ok true) => if q = port then [now] else []
  | _ => []

/-- The cycle in which transactions left a port, once for each of them. -/
def departures (port : Nat) : Event → List Nat
  | turned now result =>
      (Origin.txnsOf port ((turned now result).served.map (·.2))).map fun _ => now
  | _ => []

theorem length_arrivals (port : Nat) (e : Event) :
    (e.arrivals port).length = (Origin.txnsOf port e.accepted).length := by
  cases e with
  | submitted now q txn result =>
    cases result with
    | error _ => rfl
    | ok taken =>
      cases taken with
      | false => rfl
      | true =>
        have hone : (if q = port then [now] else []).length =
            (if q = port then [txn] else []).length := by
          split <;> rfl
        unfold accepted
        rw [Origin.txnsOf_cons, Origin.txnsOf_nil, List.append_nil]
        exact hone
  | _ => rfl

theorem length_departures (port : Nat) (e : Event) :
    (e.departures port).length = (Origin.txnsOf port (e.served.map (·.2))).length := by
  cases e with
  | turned now result => exact List.length_map _
  | _ => rfl

end Event

/-- When transactions were accepted on a port. -/
def arrivalsOn (port : Nat) (es : List Event) : List Nat := es.flatMap (Event.arrivals port)

/-- When transactions left a port. -/
def departuresOn (port : Nat) (es : List Event) : List Nat := es.flatMap (Event.departures port)

/-- How long the transactions waited that left a port: as queues are first in,
first out, the one that leaves as the `k`-th is the one that arrived as the
`k`-th. -/
def waitsOn (port : Nat) (es : List Event) : List Nat :=
  List.zipWith (· - ·) (departuresOn port es) (arrivalsOn port es)

/-- How long the transactions waited that left a number of ports. -/
def waitsIn (ports : Nat) (es : List Event) : List Nat :=
  (List.range ports).flatMap fun port => waitsOn port es

/-- What an event does to the stamps of a port. -/
inductive Clocked (port : Nat) (e : Event) : List Nat → List Nat → Prop
  /-- Nothing comes or goes. -/
  | kept {l : List Nat} (harrived : e.arrivals port = []) (hleft : e.departures port = []) :
      Clocked port e l l
  /-- A transaction arrives. -/
  | arrived {l : List Nat} {now : Nat} (harrived : e.arrivals port = [now])
      (hleft : e.departures port = []) : Clocked port e l (l ++ [now])
  /-- The oldest transaction leaves. -/
  | left {l : List Nat} {arrival now : Nat} (harrived : e.arrivals port = [])
      (hleft : e.departures port = [now]) : Clocked port e (arrival :: l) l

section Genuine

variable {σ : Type} [Requestors σ] [Backend σ]

/-- **What a piece of a run does to the stamps of a port.** -/
theorem Moment.Genuine.clocked {x : Moment σ} (h : x.Genuine) (hok : x.event.isBroken = false)
    {port : Nat} (hport : port < x.before.allocator.ports.length) :
    port < x.after.allocator.ports.length ∧
      Clocked port x.event (x.before.allocator.stampsOn port)
        (x.after.allocator.stampsOn port) := by
  obtain ⟨p, hp⟩ : ∃ p, x.before.allocator.ports[port]? = some p :=
    ⟨_, List.getElem?_eq_getElem hport⟩
  obtain ⟨p', hp', hstep⟩ := h.frontStep hok hp
  refine ⟨(List.getElem?_eq_some_iff.mp hp').1, ?_⟩
  -- what came and what went, in numbers
  have hcount := congrArg List.length ((effect_of_genuine h hok).booked.queued_eq port)
  rw [List.length_append, List.length_append, ← Event.length_arrivals,
    ← Event.length_departures] at hcount
  have hbefore : (x.before.allocator.books.queued port).length = p.length :=
    Allocator.length_queuedOn hp
  have hafter : (x.after.allocator.books.queued port).length = p'.length :=
    Allocator.length_queuedOn hp'
  rw [Allocator.stampsOn_of_get? hp, Allocator.stampsOn_of_get? hp']
  generalize x.retries port = n at hstep
  cases hstep with
  | kept hqueue _ _ hserved _ =>
    have hnone : Origin.txnsOf port (x.event.served.map (·.2)) = [] := by
      refine List.filterMap_eq_nil_iff.mpr fun o ho => if_neg ?_
      obtain ⟨s, hs, rfl⟩ := List.mem_map.mp ho
      exact hserved s hs
    have hleft : (x.event.departures port).length = 0 := by
      rw [Event.length_departures, hnone]
      rfl
    have hlength : p'.length = p.length := congrArg TimedQueue.length hqueue
    rw [hqueue]
    exact .kept (List.eq_nil_of_length_eq_zero (by omega)) (List.eq_nil_of_length_eq_zero hleft)
  | admitted he hpush =>
    rw [(TimedQueue.entries_push? hpush).1, List.map_append]
    rw [he]
    exact .arrived (if_pos rfl) rfl
  | refused he _ =>
    rw [he]
    exact .kept rfl rfl
  | @retired _ _ now turn head he _ hpop _ _ =>
    have hlength : p.length = p'.length + 1 := TimedQueue.length_pop? hpop
    have harrived : (x.event.arrivals port).length = 0 := by rw [he]; rfl
    rw [(TimedQueue.entries_pop? hpop).1, List.map_cons]
    -- one transaction left, and it did so in the cycle of the turn
    have hone : (x.event.departures port).length = 1 := by omega
    rw [Event.length_departures, he] at hone
    obtain ⟨txn, htxn⟩ := List.length_eq_one_iff.mp hone
    have hleft : x.event.departures port = [now] := by
      rw [he]
      unfold Event.departures
      simp only
      rw [htxn, List.map_singleton]
    exact .left (List.eq_nil_of_length_eq_zero harrived) hleft

end Genuine

/-! ### Runs -/

/-- The stamps of a port are the arrivals that no departure has matched. -/
def Clock (port : Nat) (es : List Event) (stamps : List Nat) : Prop :=
  ∃ gone, arrivalsOn port es = gone ++ stamps ∧ (departuresOn port es).length = gone.length

/-- **An event keeps the stamps of a port in line**, and a departure adds the
wait of the oldest entry. -/
theorem Clock.step {port : Nat} {es : List Event} {e : Event} {l l' : List Nat}
    (h : Clock port es l) (hstep : Clocked port e l l') : Clock port (es ++ [e]) l' ∧
      waitsOn port (es ++ [e]) =
        waitsOn port es ++ (e.departures port).map fun now => (l.head?.map (now - ·)).getD 0 := by
  obtain ⟨gone, harrivals, hgone⟩ := h
  unfold Clock waitsOn
  have harrivalsOn : arrivalsOn port (es ++ [e]) = gone ++ l ++ e.arrivals port := by
    unfold arrivalsOn at harrivals ⊢
    rw [List.flatMap_append, List.flatMap_singleton, harrivals]
  have hdeparturesOn : departuresOn port (es ++ [e]) =
      departuresOn port es ++ e.departures port := by
    unfold departuresOn
    rw [List.flatMap_append, List.flatMap_singleton]
  rw [harrivals, harrivalsOn, hdeparturesOn]
  -- arrivals that are yet unmatched add nothing
  have hmatched : ∀ l, List.zipWith (· - ·) (departuresOn port es) (gone ++ l) =
      List.zipWith (· - ·) (departuresOn port es) gone := by
    intro l
    have happend : List.zipWith (· - ·) (departuresOn port es ++ []) (gone ++ l) =
        List.zipWith (· - ·) (departuresOn port es) gone ++ List.zipWith (· - ·) [] l :=
      List.zipWith_append hgone
    rw [List.append_nil, List.zipWith_nil_left, List.append_nil] at happend
    exact happend
  cases hstep with
  | kept harrived hleft =>
    rw [harrived, hleft, List.append_nil, List.append_nil, List.map_nil, List.append_nil]
    exact ⟨⟨gone, rfl, hgone⟩, rfl⟩
  | arrived harrived hleft =>
    rw [harrived, hleft, List.append_nil, List.map_nil, List.append_nil,
      List.append_assoc, hmatched, hmatched]
    exact ⟨⟨gone, rfl, hgone⟩, rfl⟩
  | @left _ arrival now harrived hleft =>
    rw [harrived, hleft, List.append_nil, hmatched]
    refine ⟨⟨gone ++ [arrival], ?_, ?_⟩, ?_⟩
    · rw [List.append_assoc]
      rfl
    · rw [List.length_append, List.length_append, hgone]
      rfl
    · rw [List.zipWith_append hgone]
      rfl

section Runs

variable {σ : Type} [Requestors σ] [Backend σ]

/-- The waits that a piece of a run ends on a port. -/
def Moment.waitsOn (port : Nat) (x : Moment σ) : List Nat :=
  (x.event.departures port).map fun now => x.before.allocator.waitedAt now port

/-- The stamps and the waits of a port, over a run. -/
theorem Linked.clock {m : Assembly (Recorded σ)} {ms : List (Moment σ)} (h : Linked m ms)
    (hok : Unbroken ms) {port : Nat} (hport : port < m.allocator.ports.length)
    (hstart : m.allocator.stampsOn port = []) :
    port < (endOf m ms).allocator.ports.length ∧
      Clock port (ms.map (·.event)) ((endOf m ms).allocator.stampsOn port) ∧
      waitsOn port (ms.map (·.event)) = ms.flatMap (Moment.waitsOn port) := by
  refine Linked.induct (P := fun pre m' => port < m'.allocator.ports.length ∧
    Clock port (pre.map (·.event)) (m'.allocator.stampsOn port) ∧
    waitsOn port (pre.map (·.event)) = pre.flatMap (Moment.waitsOn port))
      (R := fun _ => True) ?_ ?_ h hok
    fun _ _ => trivial
  · rw [hstart]
    exact ⟨hport, ⟨[], rfl, rfl⟩, rfl⟩
  · rintro pre x ⟨hport, hclock, hwaits⟩ hx hokx -
    obtain ⟨hport', hclocked⟩ := hx.clocked hokx hport
    obtain ⟨hclock', hmore⟩ := hclock.step hclocked
    rw [List.map_append, List.flatMap_append, List.flatMap_singleton]
    refine ⟨hport', hclock', hmore.trans ?_⟩
    rw [hwaits]
    unfold Moment.waitsOn
    simp only [Allocator.waitedAt_eq]

/-! ### All ports together -/

/-- The waits that a piece of a run ends on any port, in the order of the
transactions. -/
def Moment.waits (x : Moment σ) : List Nat :=
  match x.event with
  | .turned now result =>
      (Event.served (.turned now result)).map fun s => x.before.allocator.waitedAt now s.2.port
  | _ => []

omit [Requestors σ] [Backend σ] in
/-- Numbers that are given out among ports, one for each transaction, add up to
what they are together. -/
theorem total_ports (ports : Nat) (os : List Origin) (f : Nat → Nat)
    (h : ∀ o ∈ os, o.port < ports) :
    total ((List.range ports).map fun port => total ((Origin.txnsOf port os).map fun _ => f port)) =
      total (os.map fun o => f o.port) := by
  induction os with
  | nil => exact total_map_zero _
  | cons o rest ih =>
    have hlt : o.port < ports := h o List.mem_cons_self
    have hrest := ih fun x hx => h x (List.mem_cons_of_mem _ hx)
    rw [List.map_cons, total, ← hrest, ← total_range_single f hlt, ← total_map_add]
    congr 1
    refine List.map_congr_left fun port _ => ?_
    rw [Origin.txnsOf_cons, List.map_append, total_append]
    by_cases hport : o.port = port
    · rw [if_pos hport, if_pos hport.symm]
      rfl
    · rw [if_neg hport, if_neg (Ne.symm hport)]
      rfl

/-- What leaves a queue leaves one of the ports. -/
theorem Moment.Genuine.port_lt {x : Moment σ} (h : x.Genuine) (hok : x.event.isBroken = false)
    {s : Nat × Origin} (hs : s ∈ x.event.served) :
    s.2.port < x.before.allocator.ports.length := by
  by_contra hport
  have hempty : x.before.allocator.books.queued s.2.port = [] := by
    show x.before.allocator.queuedOn s.2.port = []
    unfold Allocator.queuedOn Allocator.queuedIn
    rw [List.getElem?_eq_none (Nat.le_of_not_lt hport)]
    rfl
  have hqueued := (effect_of_genuine h hok).booked.queued_eq s.2.port
  have hnone : x.event.accepted = [] := by
    generalize x.event = e at hs
    cases e with
    | turned now result => rfl
    | _ => cases hs
  rw [hempty, hnone] at hqueued
  obtain ⟨hserved, -⟩ := List.append_eq_nil_iff.mp hqueued.symm
  have hmem : s.2.txn ∈ Origin.txnsOf s.2.port (x.event.served.map (·.2)) :=
    List.mem_filterMap.mpr ⟨s.2, List.mem_map_of_mem hs, if_pos rfl⟩
  rw [hserved] at hmem
  cases hmem

/-- The waits that a piece ends, port by port and together. -/
theorem Moment.Genuine.total_waits {x : Moment σ} (h : x.Genuine)
    (hok : x.event.isBroken = false) :
    total ((List.range x.before.allocator.ports.length).map fun port => total (x.waitsOn port)) =
      total x.waits := by
  have hports := fun s => h.port_lt hok (s := s)
  unfold Moment.waits Moment.waitsOn
  generalize x.event = e at hports
  cases e with
  | turned now result =>
    unfold Event.departures
    simp only [List.map_map]
    have hsum := total_ports x.before.allocator.ports.length
      ((Event.served (.turned now result)).map (·.2)) (x.before.allocator.waitedAt now)
      fun o ho => by
        obtain ⟨s, hs, rfl⟩ := List.mem_map.mp ho
        exact hports s hs
    rw [List.map_map] at hsum
    exact hsum
  | _ => exact total_map_zero _

/-- **The waits of all ports together**, over a run. -/
theorem Linked.total_waitsIn {m : Assembly (Recorded σ)} {ms : List (Moment σ)} (h : Linked m ms)
    (hok : Unbroken ms) (hstart : ∀ port, m.allocator.stampsOn port = []) :
    total (waitsIn m.allocator.ports.length (ms.map (·.event))) =
      total (ms.flatMap Moment.waits) := by
  unfold waitsIn
  rw [total_flatMap]
  have hclock : ((List.range m.allocator.ports.length).map fun port =>
      total (MemPort.waitsOn port (ms.map (·.event)))) =
      (List.range m.allocator.ports.length).map fun port =>
        total (ms.flatMap (Moment.waitsOn port)) := by
    refine List.map_congr_left fun port hport => ?_
    rw [(h.clock hok (List.mem_range.mp hport) (hstart port)).2.2]
  rw [hclock]
  have hsum :=
    Linked.induct (P := fun pre m' => m'.allocator.ports.length = m.allocator.ports.length ∧
      total ((List.range m.allocator.ports.length).map fun port =>
        total (pre.flatMap (Moment.waitsOn port))) = total (pre.flatMap Moment.waits))
    (R := fun _ => True) ⟨rfl, total_map_zero _⟩ ?_ h hok fun _ _ => trivial
  · exact hsum.2
  · rintro pre x ⟨hports, hpre⟩ hx hokx -
    refine ⟨(hx.length_ports hokx).trans hports, ?_⟩
    have hone := hx.total_waits hokx
    rw [hports] at hone
    simp only [List.flatMap_append, List.flatMap_singleton, total_append, total_map_add]
    rw [hpre, hone]

end Runs

end MemPort
