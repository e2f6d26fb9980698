import MemPort.Allocator.Issue

/-!
# What the queues hold

Transactions leave the ports in one place only, where the heads behind a request
are retired.  Here the effect of that step is stated on the transactions
themselves: every port gives up exactly the heads that are behind the request,
from the front of its queue, and nothing else moves.

Between two changes of the allocator the requestors may be told to try again, or
told of an exclusive access.  `Notified` is the closure of such calls, so that a
caller can say of the surroundings after a step that they differ from those
before by such calls alone.  Where it matters which calls were made, `Snooped`
and `Retired` tell the two kinds apart.

## Main definitions

* `Origin.txnsOf` — the transactions of one port among origins.
* `Allocator.queuedOn` — the transactions queued on a port.
* `Notified` — surroundings that differ by retries and snoops.
* `Snooped` — surroundings that differ by snoops of one access.
* `Retired` — front ends and surroundings before and after visible heads are
  retired.

## Main results

* `Assembly.queuedOn_retireHeads` — retiring takes the visible heads off their
  queues.
* `Assembly.retired_retireHeads` — only requestors that were refused are told
  to try again.

## References

`SPEC_FULL.md`, sections 3 and 4.1: queued transactions; section 4.4, step 5:
the broadcast of snoops.
-/

namespace MemPort

/-! ### Transactions by port -/

/-- The transactions of one port among origins, in order. -/
def Origin.txnsOf (port : Nat) (os : List Origin) : List Transaction :=
  os.filterMap fun o => if o.port = port then some o.txn else none

namespace Origin

@[simp] theorem txnsOf_nil (port : Nat) : txnsOf port [] = [] := rfl

@[simp] theorem txnsOf_append (port : Nat) (os os' : List Origin) :
    txnsOf port (os ++ os') = txnsOf port os ++ txnsOf port os' := List.filterMap_append

theorem txnsOf_cons (port : Nat) (o : Origin) (os : List Origin) :
    txnsOf port (o :: os) = (if o.port = port then [o.txn] else []) ++ txnsOf port os := by
  unfold txnsOf
  by_cases h : o.port = port <;> simp [h]

/-- Where every port stands once, each origin is the only one of its port. -/
theorem txnsOf_of_nodup {os : List Origin} (hnodup : (os.map (·.port)).Nodup) {o : Origin}
    (ho : o ∈ os) : txnsOf o.port os = [o.txn] := by
  induction os with
  | nil => cases ho
  | cons x rest ih =>
    obtain ⟨hx, hrest⟩ := List.nodup_cons.mp hnodup
    rw [txnsOf_cons]
    rcases List.mem_cons.mp ho with rfl | ho
    · have hnone : txnsOf o.port rest = [] := by
        refine List.filterMap_eq_nil_iff.mpr fun y hy => if_neg fun heq => hx ?_
        exact List.mem_map.mpr ⟨y, hy, heq⟩
      rw [if_pos rfl, hnone, List.append_nil]
    · have hne : x.port ≠ o.port := fun heq => hx (List.mem_map.mpr ⟨o, ho, heq.symm⟩)
      rw [if_neg hne, List.nil_append]
      exact ih hrest ho

/-- How often a transaction stands among those of its port is how often its
origin stands. -/
theorem count_txnsOf (os : List Origin) (o : Origin) :
    (txnsOf o.port os).count o.txn = os.count o := by
  induction os with
  | nil => rfl
  | cons x rest ih =>
    rw [txnsOf_cons, List.count_append, ih, List.count_cons]
    obtain ⟨xp, xt⟩ := x
    obtain ⟨p, t⟩ := o
    by_cases hp : xp = p
    · by_cases ht : xt = t
      · simp [hp, ht, Nat.add_comm]
      · simp [hp, ht]
    · simp [hp]

/-- **Origins are told apart by port**: two lists with the same transactions on
every port have the same origins, up to their order. -/
theorem perm_of_txnsOf {os os' : List Origin}
    (h : ∀ port, (txnsOf port os).Perm (txnsOf port os')) : os.Perm os' := by
  rw [List.perm_iff_count]
  intro o
  rw [← count_txnsOf os o, ← count_txnsOf os' o]
  exact (h o.port).count_eq o.txn

end Origin

namespace Allocator

/-- The transactions queued on one of some front ends, oldest first. -/
def queuedIn (ports : List RequestorPort) (port : Nat) : List Transaction :=
  (ports[port]?.map (·.queued)).getD []

/-- The transactions queued on a port, oldest first. -/
def queuedOn (a : Allocator) (port : Nat) : List Transaction := queuedIn a.ports port

theorem length_queuedOn {a : Allocator} {port : Nat} {p : RequestorPort}
    (hp : a.ports[port]? = some p) : (a.queuedOn port).length = p.length := by
  unfold queuedOn queuedIn
  rw [hp, Option.map_some, Option.getD_some]
  unfold RequestorPort.queued
  rw [List.length_map]
  rfl

/-- All queued transactions with their ports. -/
def queued (a : Allocator) : List Origin :=
  (List.range a.ports.length).flatMap fun port => (a.queuedOn port).map (Origin.mk port)

/-- As many transactions are queued as all ports hold together. -/
theorem length_queued (a : Allocator) : a.queued.length = a.waiting := by
  unfold queued waiting
  rw [length_flatMap_eq_total]
  congr 1
  refine List.ext_getElem (by simp) fun port hport _ => ?_
  have hlt : port < a.ports.length := by simpa using hport
  rw [List.getElem_map, List.getElem_map, List.getElem_range, List.length_map]
  exact length_queuedOn (List.getElem?_eq_getElem hlt)

theorem txnsOf_queued (a : Allocator) (port : Nat) :
    Origin.txnsOf port a.queued = a.queuedOn port := by
  -- of the queues in a row, one is that of the port
  have hone : ∀ q, Origin.txnsOf port ((a.queuedOn q).map (Origin.mk q)) =
      if q = port then a.queuedOn q else [] := by
    intro q
    unfold Origin.txnsOf
    rw [List.filterMap_map]
    by_cases hq : q = port
    · simp only [Function.comp_def, hq, if_true, List.filterMap_some]
    · simp [hq]
  have hsum : ∀ n, Origin.txnsOf port ((List.range n).flatMap fun q =>
      (a.queuedOn q).map (Origin.mk q)) = if port < n then a.queuedOn port else [] := by
    intro n
    induction n with
    | zero => rfl
    | succ n ih =>
      rw [List.range_succ, List.flatMap_append, Origin.txnsOf_append, ih, List.flatMap_singleton,
        hone]
      by_cases hlt : port < n
      · have hne : n ≠ port := by omega
        rw [if_pos hlt, if_neg hne, if_pos (by omega), List.append_nil]
      · by_cases heq : n = port
        · rw [if_neg hlt, if_pos heq, if_pos (by omega), heq, List.nil_append]
        · rw [if_neg hlt, if_neg heq, if_neg (by omega)]
          rfl
  unfold queued
  rw [hsum]
  by_cases hlt : port < a.ports.length
  · rw [if_pos hlt]
  · rw [if_neg hlt]
    unfold queuedOn queuedIn
    rw [List.getElem?_eq_none (Nat.le_of_not_lt hlt)]
    rfl

end Allocator

/-! ### Notices to the requestors -/

/-- The surroundings after any number of retries and snoops. -/
inductive Notified {σ : Type} [Requestors σ] (s : σ) : σ → Prop
  /-- No call was made. -/
  | refl : Notified s s
  /-- A lane was told to try again. -/
  | retried {t : σ} (port : Nat) (h : Notified s t) :
      Notified s (Requestors.notifyRetry port t).value
  /-- A lane was told of an exclusive access. -/
  | snooped {t : σ} (lane : Nat) (snoop : Snoop) (h : Notified s t) :
      Notified s (Requestors.receiveSnoop lane snoop t).value.2

theorem Notified.trans {σ : Type} [Requestors σ] {s t u : σ} (h : Notified s t)
    (h' : Notified t u) : Notified s u := by
  induction h' with
  | refl => exact h
  | retried port _ ih => exact ih.retried port
  | snooped lane snoop _ ih => exact ih.snooped lane snoop

/-- A part of the surroundings that retries and snoops leave alone. -/
theorem Notified.eq_of {σ α : Type} [Requestors σ] {s t : σ} (part : σ → α)
    (hretry : ∀ port u, part (Requestors.notifyRetry port u).value = part u)
    (hsnoop : ∀ lane snoop u, part (Requestors.receiveSnoop lane snoop u).value.2 = part u)
    (h : Notified s t) : part t = part s := by
  induction h with
  | refl => rfl
  | retried port _ ih => rw [hretry, ih]
  | snooped lane snoop _ ih => rw [hsnoop, ih]

/-- The surroundings after lanes other than its source took a snoop, without
breaking a contract. -/
inductive Snooped {σ : Type} [Requestors σ] (snoop? : Option Snoop) (s : σ) : σ → Prop
  /-- No lane was told yet. -/
  | refl : Snooped snoop? s s
  /-- One more lane was told. -/
  | snooped {t : σ} {lane : Nat} {snoop : Snoop} (h : Snooped snoop? s t)
      (hsnoop : snoop? = some snoop) (hlane : lane ≠ snoop.source)
      (htaken : (Requestors.receiveSnoop lane snoop t).value.1 = .ok ()) :
      Snooped snoop? s (Requestors.receiveSnoop lane snoop t).value.2

/-- One of the lanes breaks a contract over a snoop. -/
def BreaksOver {σ : Type} [Requestors σ] (snoop? : Option Snoop) (s : σ)
    (a : Assertion) : Prop :=
  ∃ t lane snoop, Snooped snoop? s t ∧ snoop? = some snoop ∧ lane ≠ snoop.source ∧
    lane < Requestors.lanes s ∧ (Requestors.receiveSnoop lane snoop t).value.1 = .error a

theorem Snooped.notified {σ : Type} [Requestors σ] {snoop? : Option Snoop} {s t : σ}
    (h : Snooped snoop? s t) : Notified s t := by
  induction h with
  | refl => exact .refl
  | @snooped t lane snoop _ _ _ _ ih => exact ih.snooped lane snoop

/-- Front ends and surroundings before and after the visible heads of some ports
are retired, one port after the other.  A requestor that was refused is told to
try again when its head leaves. -/
inductive Retired {σ : Type} [Requestors σ] (now : Nat) :
    List Nat → List RequestorPort × σ → List RequestorPort × σ → Prop
  /-- No port is left. -/
  | nil (x : List RequestorPort × σ) : Retired now [] x x
  /-- A head leaves, and the debt of a retry is settled. -/
  | cons {port : Nat} {rest : List Nat} {ps : List RequestorPort} {s : σ}
      {p p' : RequestorPort} {e : Stamped Transaction} {y : List RequestorPort × σ}
      (hp : ps[port]? = some p) (hpop : p.pop? now = some (e, p'))
      (h : Retired now rest (ps.set port { p' with needsRetry := false },
        if p.needsRetry then (Requestors.notifyRetry port s).value else s) y) :
      Retired now (port :: rest) (ps, s) y

/-- What becomes of the front ends when heads are retired: those of the ports in
question lose their heads and their debts, and the others stay as they were. -/
theorem Retired.get? {σ : Type} [Requestors σ] {now : Nat} {ports : List Nat}
    {x y : List RequestorPort × σ} (h : Retired now ports x y) (hnodup : ports.Nodup) (q : Nat) :
    (q ∈ ports → ∃ p e p', x.1[q]? = some p ∧ p.pop? now = some (e, p') ∧
      y.1[q]? = some { p' with needsRetry := false }) ∧ (q ∉ ports → y.1[q]? = x.1[q]?) := by
  induction h with
  | nil x => exact ⟨nofun, fun _ => rfl⟩
  -- the ports still to be retired do not touch the one just retired
  | @cons port rest ps s p p' e y hp hpop _ ih =>
    obtain ⟨hfresh, hnodup⟩ := List.nodup_cons.mp hnodup
    obtain ⟨hmem, hkept⟩ := ih hnodup
    have hlt := (List.getElem?_eq_some_iff.mp hp).1
    constructor
    · intro hq
      rcases List.mem_cons.mp hq with rfl | hq
      · refine ⟨p, e, p', hp, hpop, ?_⟩
        rw [hkept hfresh]
        exact List.getElem?_set_self hlt
      · have hne : port ≠ q := fun heq => hfresh (heq ▸ hq)
        obtain ⟨p₁, e₁, p₁', hp₁, hrest⟩ := hmem hq
        simp only [List.getElem?_set_ne hne] at hp₁
        exact ⟨p₁, e₁, p₁', hp₁, hrest⟩
    · intro hq
      rw [List.mem_cons, not_or] at hq
      rw [hkept hq.2]
      exact List.getElem?_set_ne (Ne.symm hq.1)

namespace Assembly

variable {σ : Type} [Requestors σ]

/-! ### Retiring -/

/-- What a visible head is: the front of the queue of a port that is not parked. -/
theorem queued_pop? {p p' : RequestorPort} {now : Nat} {txn : Transaction}
    {e : Stamped Transaction} (hhead : p.head? now = some txn) (hpop : p.pop? now = some (e, p')) :
    p.queued = txn :: p'.queued := by
  obtain ⟨e', p'', hpop', htxn, -⟩ := RequestorPort.pop?_of_head? hhead
  rw [hpop] at hpop'
  cases hpop'
  obtain ⟨-, queue, hqueue, rfl⟩ := RequestorPort.pop?_eq_some hpop
  unfold RequestorPort.queued
  rw [(TimedQueue.entries_pop? hqueue).1, List.map_cons, htxn]

theorem ports_retireHead_of_head {m : Assembly σ} {now port : Nat} {txn : Transaction}
    (h : m.allocator.headAt? now port = some txn) :
    ∃ p p' : RequestorPort, m.allocator.ports[port]? = some p ∧ p.queued = txn :: p'.queued ∧
      (m.retireHead now port).allocator.ports = m.allocator.ports.set port p' := by
  have hports := ports_retireHead now m port
  obtain ⟨p, hp, hhead⟩ := Allocator.headAt?_eq_some_iff.mp h
  obtain ⟨e, p', hpop, -⟩ := RequestorPort.pop?_of_head? hhead
  rw [hp] at hports
  simp only [hpop, Option.map_some, Option.getD_some] at hports
  have hqueued := queued_pop? hhead hpop
  exact ⟨p, { p' with needsRetry := false }, hp, hqueued, hports⟩

/-- **Retiring a visible head** takes it off the front of its queue, and no
other. -/
theorem queuedOn_retireHead {m : Assembly σ} {now port : Nat} {txn : Transaction}
    (h : m.allocator.headAt? now port = some txn) (q : Nat) :
    m.allocator.queuedOn q =
      (if port = q then [txn] else []) ++ (m.retireHead now port).allocator.queuedOn q := by
  obtain ⟨p, p', hp, hqueued, hports⟩ := ports_retireHead_of_head h
  unfold Allocator.queuedOn Allocator.queuedIn
  rw [hports]
  by_cases hq : port = q
  · subst hq
    have hlt := (List.getElem?_eq_some_iff.mp hp).1
    rw [hp, List.getElem?_set_self hlt, if_pos rfl]
    exact hqueued
  · rw [List.getElem?_set_ne hq, if_neg hq, List.nil_append]

theorem headAt?_retireHead_of_ne {m : Assembly σ} {now port q : Nat} (hq : port ≠ q) :
    (m.retireHead now port).allocator.headAt? now q = m.allocator.headAt? now q := by
  unfold Allocator.headAt?
  rw [ports_retireHead]
  split
  · rfl
  · rw [List.getElem?_set_ne hq]

/-- A head that leaves its queue does not disturb the visible heads of the other
ports. -/
theorem visible_retireHead {m : Assembly σ} {now : Nat} {o : Origin} {rest : List Origin}
    (hvisible : ∀ x ∈ o :: rest, m.allocator.headAt? now x.port = some x.txn)
    (hfresh : o.port ∉ rest.map (·.port)) :
    ∀ x ∈ rest, (m.retireHead now o.port).allocator.headAt? now x.port = some x.txn := by
  intro x hx
  have hne : o.port ≠ x.port := fun heq => hfresh (heq ▸ List.mem_map.mpr ⟨x, hx, rfl⟩)
  rw [headAt?_retireHead_of_ne hne]
  exact hvisible x (List.mem_cons_of_mem _ hx)

/-- **Retiring visible heads** of different ports takes them off their queues,
and nothing else. -/
theorem queuedOn_retireHeads {m : Assembly σ} {now : Nat} {os : List Origin}
    (hvisible : ∀ o ∈ os, m.allocator.headAt? now o.port = some o.txn)
    (hnodup : (os.map (·.port)).Nodup) (q : Nat) :
    m.allocator.queuedOn q = Origin.txnsOf q os ++
      (m.retireHeads now (os.map (·.port))).allocator.queuedOn q := by
  induction os generalizing m with
  | nil => rfl
  | cons o rest ih =>
    rw [List.map_cons, List.nodup_cons] at hnodup
    obtain ⟨hfresh, hnodup⟩ := hnodup
    have hrest := visible_retireHead hvisible hfresh
    have htail := ih hrest hnodup
    rw [queuedOn_retireHead (hvisible o List.mem_cons_self) q, htail, Origin.txnsOf_cons,
      List.append_assoc]
    rfl

/-- **Retiring visible heads** of different ports settles their debts, and tells
the requestors that were owed a retry and no others. -/
theorem retired_retireHeads {m : Assembly σ} {now : Nat} {os : List Origin}
    (hvisible : ∀ o ∈ os, m.allocator.headAt? now o.port = some o.txn)
    (hnodup : (os.map (·.port)).Nodup) :
    Retired now (os.map (·.port)) (m.allocator.ports, m.surroundings)
      ((m.retireHeads now (os.map (·.port))).allocator.ports,
        (m.retireHeads now (os.map (·.port))).surroundings) := by
  induction os generalizing m with
  | nil => exact .nil _
  | cons o rest ih =>
    rw [List.map_cons, List.nodup_cons] at hnodup
    obtain ⟨hfresh, hnodup⟩ := hnodup
    have hrest := visible_retireHead hvisible hfresh
    obtain ⟨p, hp, hhead⟩ := Allocator.headAt?_eq_some_iff.mp (hvisible o List.mem_cons_self)
    obtain ⟨e, p', hpop, -, -, -, howed, -⟩ := RequestorPort.pop?_of_head? hhead
    -- the first head leaves
    have hfirst : (m.retireHead now o.port).allocator.ports =
          m.allocator.ports.set o.port { p' with needsRetry := false } ∧
        (m.retireHead now o.port).surroundings =
          if p.needsRetry then (Requestors.notifyRetry o.port m.surroundings).value
          else m.surroundings := by
      constructor
      · rw [ports_retireHead]
        simp only [hp, hpop, Option.map_some, Option.getD_some]
      · unfold retireHead
        simp only [hp, hpop, Option.map_some, Option.getD_some, RequestorPort.takeRetry, howed]
        split <;> rfl
    have htail := ih hrest hnodup
    rw [hfirst.1, hfirst.2] at htail
    exact .cons hp hpop htail

/-- Retiring changes the front ends and the counters, and calls the requestors. -/
theorem frame_retireHead (now : Nat) (m : Assembly σ) (port : Nat) :
    (∃ ports stats, (m.retireHead now port).allocator = { m.allocator with ports, stats }) ∧
      Notified m.surroundings (m.retireHead now port).surroundings := by
  unfold retireHead
  split
  · exact ⟨⟨_, _, rfl⟩, .refl⟩
  · rename_i p _
    simp only
    cases p.pop? now with
    | none =>
      split
      · exact ⟨⟨_, _, rfl⟩, .retried port .refl⟩
      · exact ⟨⟨_, _, rfl⟩, .refl⟩
    | some r =>
      split
      · exact ⟨⟨_, _, rfl⟩, .retried port .refl⟩
      · exact ⟨⟨_, _, rfl⟩, .refl⟩

theorem frame_retireHeads (now : Nat) (m : Assembly σ) (ports : List Nat) :
    (∃ ports' stats, (m.retireHeads now ports).allocator =
        { m.allocator with ports := ports', stats }) ∧
      Notified m.surroundings (m.retireHeads now ports).surroundings := by
  induction ports generalizing m with
  | nil => exact ⟨⟨_, _, rfl⟩, .refl⟩
  | cons port rest ih =>
    obtain ⟨⟨ports₁, stats₁, h₁⟩, hn₁⟩ := frame_retireHead now m port
    obtain ⟨⟨ports₂, stats₂, h₂⟩, hn₂⟩ := ih (m.retireHead now port)
    refine ⟨⟨ports₂, stats₂, ?_⟩, hn₁.trans hn₂⟩
    rw [h₁] at h₂
    exact h₂

/-! ### Broadcasting -/

/-- One lane takes a snoop, or breaks a contract over it. -/
theorem sendSnoop_eq (m : Assembly σ) (lane : Nat) (snoop : Snoop) :
    (∃ m', m.sendSnoop lane snoop = .ok () m' ∧
      (Requestors.receiveSnoop lane snoop m.surroundings).value.1 = .ok () ∧
      m'.surroundings = (Requestors.receiveSnoop lane snoop m.surroundings).value.2) ∨
    ∃ a m', m.sendSnoop lane snoop = .error (.assertion a) m' ∧
      (Requestors.receiveSnoop lane snoop m.surroundings).value.1 = .error a := by
  unfold sendSnoop settle
  simp only
  split
  · rename_i a ha
    exact Or.inr ⟨a, _, rfl, ha⟩
  · rename_i ha
    exact Or.inl ⟨_, rfl, ha, rfl⟩

/-- Telling lanes one after the other goes through, or ends at one that breaks a
contract. -/
theorem snooped_snoopLanes {s : σ} {snoop : Snoop} {lanes : List Nat}
    (hlanes : ∀ lane ∈ lanes, lane ≠ snoop.source ∧ lane < Requestors.lanes s)
    {m : Assembly σ} (hs : Snooped (some snoop) s m.surroundings) :
    (∃ m', m.snoopLanes snoop lanes = .ok () m' ∧ Snooped (some snoop) s m'.surroundings) ∨
    ∃ a m', m.snoopLanes snoop lanes = .error (.assertion a) m' ∧
    BreaksOver (some snoop) s a := by
  induction lanes generalizing m with
  | nil => exact Or.inl ⟨m, rfl, hs⟩
  | cons lane rest ih =>
    obtain ⟨hlane, hlt⟩ := hlanes lane List.mem_cons_self
    unfold snoopLanes
    rcases sendSnoop_eq (m.note (.snooping lane snoop)) lane snoop with
      ⟨m₁, hsent, htaken, hm₁⟩ | ⟨a, m₁, hsent, hbreaks⟩
    · rw [hsent]
      simp only
      refine ih (fun l hl => hlanes l (List.mem_cons_of_mem _ hl)) ?_
      rw [hm₁]
      exact hs.snooped rfl hlane htaken
    · rw [hsent]
      exact Or.inr ⟨a, m₁, rfl, _, lane, snoop, hs, rfl, hlane, hlt, hbreaks⟩

/-- A broadcast changes a counter and tells the other lanes, or one of them
breaks a contract. -/
theorem snooped_broadcast? (m : Assembly σ) (snoop? : Option Snoop) :
    (∃ m', m.broadcast? snoop? = .ok () m' ∧
      (∃ stats, m'.allocator = { m.allocator with stats }) ∧
      Snooped snoop? m.surroundings m'.surroundings) ∨
    ∃ a m', m.broadcast? snoop? = .error (.assertion a) m' ∧
    BreaksOver snoop? m.surroundings a := by
  cases snoop? with
  | none => exact Or.inl ⟨m, rfl, ⟨_, rfl⟩, .refl⟩
  | some snoop =>
    unfold broadcast? broadcast
    simp only
    have hlanes : ∀ lane ∈ (List.range (Requestors.lanes m.surroundings)).filter
        (· != snoop.source), lane ≠ snoop.source ∧ lane < Requestors.lanes m.surroundings := by
      intro lane hlane
      obtain ⟨hrange, hne⟩ := List.mem_filter.mp hlane
      exact ⟨bne_iff_ne.mp hne, List.mem_range.mp hrange⟩
    rcases snooped_snoopLanes hlanes (m := m) .refl with
      ⟨m₁, hok, hs⟩ | ⟨a, m₁, herr, hbreaks⟩
    · rw [hok]
      refine Or.inl ⟨_, rfl, ?_, hs⟩
      refine ⟨m₁.allocator.stats.recordSnoops (Requestors.lanes m.surroundings - 1), ?_⟩
      rw [← allocator_snoopLanes hok]
      rfl
    · rw [herr]
      exact Or.inr ⟨a, m₁, rfl, hbreaks⟩

/-- A broadcast that goes through changes a counter, and calls the requestors. -/
theorem frame_broadcast? {m m' : Assembly σ} {snoop : Option Snoop}
    (h : m.broadcast? snoop = .ok () m') :
    (∃ stats, m'.allocator = { m.allocator with stats }) ∧
      Snooped snoop m.surroundings m'.surroundings := by
  rcases snooped_broadcast? m snoop with ⟨m₁, hok, hframe⟩ | ⟨a, m₁, herr, -⟩
  · rw [hok] at h
    cases h
    exact hframe
  · rw [herr] at h
    cases h

theorem broken_broadcast? {m m' : Assembly σ} {snoop : Option Snoop} {e : Failure}
    (h : m.broadcast? snoop = .error e m') :
    ∃ a, e = .assertion a ∧ BreaksOver snoop m.surroundings a := by
  rcases snooped_broadcast? m snoop with ⟨m₁, hok, -⟩ | ⟨a, m₁, herr, hbreaks⟩
  · rw [hok] at h
    cases h
  · rw [herr] at h
    cases h
    exact ⟨a, rfl, hbreaks⟩

end Assembly
end MemPort
