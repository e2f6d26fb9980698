import MemPort.Proofs.Queues
import MemPort.Proofs.Entries

/-!
# What is folded into what

A request is formed from the visible heads of one or more ports, and may then
join a load in flight.  Both choices are made by a scan: over the ready ports,
and over the requests in flight from the oldest to the youngest.  Here each scan
is characterised without its order of visits.

## Main definitions

* `Coalesced.FormedFrom` — a request made of visible heads, all of them loads
  of one line if there is more than one.
* `Coalesced.Uniform` — a request is for one line.
* `Coalesced.Joins`, `Coalesced.Blocks` — the two kinds of requests in flight
  that a load of a line can meet.

## Main results

* `Allocator.formedFrom_gather` — what is gathered for a head is formed from
  visible heads.
* `Allocator.foldTarget?_eq_some`, `Allocator.foldTarget?_eq_none` — which
  load in flight is chosen.
* `Allocator.foldInTime?_eq_none_iff` — a load that is chosen can always be
  joined.

## References

`SPEC_FULL.md`, section 4.4, step 5, and section 10.6, item 7: which request in
flight a load may join.
-/

namespace MemPort

/-! ### Folding before a request is sent -/

/-- All transactions behind a request are for its line, and do what it does. -/
def Coalesced.Uniform (c : Coalesced) (lineSize : Nat) : Prop :=
  ∀ o ∈ c.origins, blockBase o.txn.addr lineSize = c.line ∧ o.txn.cmd = c.cmd

/-- A request for the head of the granted port, made of heads that are visible
now. -/
structure Coalesced.FormedFrom (request : Coalesced) (a : Allocator) (now granted : Nat)
    (head : Transaction) : Prop where
  /-- The head of the granted port comes first. -/
  first : request.first = ⟨granted, head⟩
  /-- The request is for the line of that head. -/
  line : request.line = a.config.lineOf head.addr
  /-- All transactions behind the request are visible heads. -/
  visible : ∀ o ∈ request.origins, a.headAt? now o.port = some o.txn
  /-- Every port gives one head at most. -/
  nodup : request.ports.Nodup
  /-- No transaction spills past its line. -/
  fits : ∀ o ∈ request.origins, checkLineFit o.port o.txn a.config.lineSize = .ok ()
  /-- Heads share an access only if they are loads of the line, and if that is
  wanted. -/
  shared : ∀ o ∈ request.folded, a.config.enableCoalescing = true ∧ head.cmd = .read ∧
    o.txn.cmd = .read ∧ a.config.lineOf o.txn.addr = request.line

namespace Coalesced.FormedFrom

variable {request : Coalesced} {a : Allocator} {now granted : Nat} {head : Transaction}

theorem cmd_eq (h : request.FormedFrom a now granted head) : request.cmd = head.cmd := by
  unfold Coalesced.cmd
  rw [h.first]

theorem folded_eq_nil (h : request.FormedFrom a now granted head) (hcmd : head.cmd ≠ .read) :
    request.folded = [] := by
  rw [List.eq_nil_iff_forall_not_mem]
  intro o ho
  exact hcmd (h.shared o ho).2.1

theorem uniform (h : request.FormedFrom a now granted head) :
    request.Uniform a.config.lineSize := by
  intro o ho
  rcases List.mem_cons.mp ho with rfl | ho
  · rw [h.cmd_eq, h.line, h.first]
    exact ⟨rfl, rfl⟩
  · obtain ⟨-, hhead, hread, hline⟩ := h.shared o ho
    rw [h.cmd_eq, hhead]
    exact ⟨hline, hread⟩

end Coalesced.FormedFrom

namespace Coalesced

/-- Only loads of one line are joined. -/
theorem loads_of_absorb? {c other d : Coalesced} (h : c.absorb? other = some d) :
    c.cmd = .read ∧ other.cmd = .read ∧ other.line = c.line := by
  unfold absorb? at h
  split at h
  · rename_i hon
    simp only [Bool.and_eq_true, beq_iff_eq] at hon
    obtain ⟨⟨hload, hcmd⟩, hline⟩ := hon
    have hread := (Command.isCoalescable_iff _).mp hload
    exact ⟨hread, hcmd.trans hread, hline⟩
  · cases h

/-- Two requests that are each for one line, and are joined, are for the same
one. -/
theorem uniform_absorb? {c other d : Coalesced} {lineSize : Nat} (hc : c.Uniform lineSize)
    (hother : other.Uniform lineSize) (h : c.absorb? other = some d) : d.Uniform lineSize := by
  obtain ⟨horigins, hcmd, hline⟩ := origins_absorb? h
  obtain ⟨hread, hread', hline'⟩ := loads_of_absorb? h
  intro o ho
  rw [hcmd, hline]
  rw [horigins, List.mem_append] at ho
  rcases ho with ho | ho
  · exact hc o ho
  · rw [hread, ← hread', ← hline']
    exact hother o ho

end Coalesced

namespace Allocator

theorem ports_ofTransaction (port : Nat) (txn : Transaction) (lineSize : Nat) :
    (Coalesced.ofTransaction port txn lineSize).ports = [port] := rfl

theorem formedFrom_ofTransaction {a : Allocator} {now granted : Nat} {head : Transaction}
    (hhead : a.headAt? now granted = some head)
    (hfit : checkLineFit granted head a.config.lineSize = .ok ()) :
    (Coalesced.ofTransaction granted head a.config.lineSize).FormedFrom a now granted head where
  first := rfl
  line := rfl
  visible o ho := by
    rw [List.mem_singleton.mp ho]
    exact hhead
  nodup := List.pairwise_singleton _ _
  fits o ho := by
    rw [List.mem_singleton.mp ho]
    exact hfit
  shared o ho := by cases ho

/-- Adding a visible head of another port keeps a request formed. -/
theorem formedFrom_add {a : Allocator} {now granted port : Nat} {head txn : Transaction}
    {request : Coalesced} (h : request.FormedFrom a now granted head)
    (hon : a.config.enableCoalescing = true) (hvisible : a.headAt? now port = some txn)
    (hfresh : port ∉ request.ports) (hjoin : request.canJoin txn a.config.lineSize = true)
    (hfit : checkLineFit port txn a.config.lineSize = .ok ()) :
    (request.add ⟨port, txn⟩).FormedFrom a now granted head := by
  -- joining is allowed for loads of one line, and the port is a new one
  unfold Coalesced.canJoin at hjoin
  simp only [Bool.and_eq_true, beq_iff_eq, Command.isCoalescable_iff] at hjoin
  obtain ⟨⟨hread, hcmd⟩, hline⟩ := hjoin
  refine ⟨h.first, h.line, ?_, ?_, ?_, ?_⟩
  · intro o ho
    rw [Coalesced.origins_add, List.mem_append, List.mem_singleton] at ho
    rcases ho with ho | rfl
    · exact h.visible o ho
    · exact hvisible
  · have hports : (request.add ⟨port, txn⟩).ports = request.ports ++ [port] := by
      unfold Coalesced.ports
      rw [Coalesced.origins_add, List.map_append]
      rfl
    rw [hports]
    exact List.nodup_append.mpr ⟨h.nodup, List.pairwise_singleton _ _, fun x hx y hy heq => by
      rw [List.mem_singleton.mp hy] at heq
      exact hfresh (heq ▸ hx)⟩
  · intro o ho
    rw [Coalesced.origins_add, List.mem_append, List.mem_singleton] at ho
    rcases ho with ho | rfl
    · exact h.fits o ho
    · exact hfit
  · intro o ho
    rcases List.mem_append.mp ho with ho | ho
    · exact h.shared o ho
    · rw [List.mem_singleton.mp ho]
      exact ⟨hon, h.cmd_eq ▸ hread, hcmd.trans hread, hline⟩

/-- **What is gathered is formed from visible heads.** -/
theorem formedFrom_gather {a : Allocator} {now granted : Nat} {head : Transaction}
    (hon : a.config.enableCoalescing = true) :
    ∀ {ports : List Nat} {request request' : Coalesced}, ports.Nodup →
      (∀ port ∈ ports, port ∈ request.ports → port = granted) →
      request.FormedFrom a now granted head →
      a.gather now granted ports request = .ok request' →
      request'.FormedFrom a now granted head := by
  intro ports
  induction ports with
  | nil =>
    intro request request' _ _ h hgather
    cases hgather
    exact h
  | cons port rest ih =>
    intro request request' hnodup hfresh h hgather
    rw [List.nodup_cons] at hnodup
    have hfreshRest : ∀ q ∈ rest, q ∈ request.ports → q = granted :=
      fun q hq => hfresh q (List.mem_cons_of_mem _ hq)
    unfold gather at hgather
    split at hgather
    · exact ih hnodup.2 hfreshRest h hgather
    · rename_i txn htxn
      split at hgather
      · rename_i hjoin
        split at hgather
        · cases hgather
        · -- the head joins, and its port is not asked again
          rename_i hfit
          have hne : port ≠ granted := fun heq => by simp [heq] at htxn
          rw [if_neg hne] at htxn
          have hnew : port ∉ request.ports :=
            fun hmem => hne (hfresh port List.mem_cons_self hmem)
          refine ih hnodup.2 ?_ (formedFrom_add h hon htxn hnew hjoin hfit) hgather
          intro q hq hmem
          unfold Coalesced.ports at hmem
          rw [Coalesced.origins_add, List.map_append, List.mem_append] at hmem
          rcases hmem with hmem | hmem
          · exact hfreshRest q hq hmem
          · rw [List.map_singleton, List.mem_singleton] at hmem
            rw [hmem] at hq
            exact absurd hq hnodup.1
      · exact ih hnodup.2 hfreshRest h hgather

/-- Gathering fails only at a visible head that spills past its line. -/
theorem spilled_gather {a : Allocator} {now granted : Nat} {v : InvariantViolation} :
    ∀ {ports : List Nat} {request : Coalesced}, a.gather now granted ports request = .error v →
      ∃ port txn, a.headAt? now port = some txn ∧
        checkLineFit port txn a.config.lineSize = .error v := by
  intro ports
  -- the walk stops at the first head that spills
  induction ports with
  | nil => intro request h; cases h
  | cons port rest ih =>
    intro request h
    unfold gather at h
    split at h
    · exact ih h
    · rename_i txn htxn
      split at h
      · split at h
        · rename_i hv
          cases h
          refine ⟨port, txn, ?_, hv⟩
          split at htxn
          · cases htxn
          · exact htxn
        · exact ih h
      · exact ih h

theorem nodup_readyPorts (ready : List Bool) : (readyPorts ready).Nodup :=
  List.Pairwise.filter _ List.nodup_range

/-- Gathering depends on the visible heads of the ready ports and on the
settings alone. -/
theorem gather_congr {a b : Allocator} {now granted : Nat} (hconfig : a.config = b.config) :
    ∀ {ports : List Nat} {request : Coalesced},
      (∀ port ∈ ports, a.headAt? now port = b.headAt? now port) →
      a.gather now granted ports request = b.gather now granted ports request := by
  intro ports
  induction ports with
  | nil => intro request _; rfl
  | cons port rest ih =>
    intro request h
    unfold gather
    rw [h port List.mem_cons_self, hconfig]
    split
    · exact ih fun q hq => h q (List.mem_cons_of_mem _ hq)
    · split
      · split
        · rfl
        · exact ih fun q hq => h q (List.mem_cons_of_mem _ hq)
      · exact ih fun q hq => h q (List.mem_cons_of_mem _ hq)

end Allocator

/-! ### Folding into a load in flight -/

namespace Coalesced

/-- A request in flight that a load could join: it is for the same line, and
does the same. -/
def Joins (pending request : Coalesced) : Prop :=
  pending.line = request.line ∧ pending.cmd = request.cmd

/-- A request in flight that a load must not be folded past: it stores to the
same line. -/
def Blocks (pending request : Coalesced) : Prop :=
  pending.line = request.line ∧ pending.cmd.isExclusive = true

theorem not_blocks_of_joins {pending request : Coalesced} (hread : request.cmd = .read)
    (h : pending.Joins request) : ¬ pending.Blocks request := by
  rintro ⟨-, hex⟩
  rw [h.2, hread] at hex
  cases hex

end Coalesced

namespace Allocator

/-- What the scan for a load to join has found among ascending entries: none if
every load has a store behind it, and else the oldest that has none. -/
def FoldScan (request : Coalesced) (entries : List (Nat × Coalesced))
    (target : Option Nat) : Prop :=
  (∀ e ∈ entries, e.2.Joins request → (∀ id ∈ target, e.1 < id) →
    ∃ x ∈ entries, e.1 < x.1 ∧ x.2.Blocks request) ∧
  ∀ id ∈ target, (∃ pending, (id, pending) ∈ entries ∧ pending.Joins request) ∧
    ∀ x ∈ entries, x.2.Blocks request → x.1 < id

/-- One step of the scan. -/
theorem FoldScan.snoc {request : Coalesced} {entries : List (Nat × Coalesced)}
    {target : Option Nat} {e : Nat × Coalesced} (h : FoldScan request entries target)
    (hread : request.cmd = .read) (hlast : ∀ x ∈ entries, x.1 < e.1) :
    FoldScan request (entries ++ [e])
      (if e.2.line != request.line then target
      else if e.2.cmd.isExclusive then none
      else if target.isNone && e.2.cmd == request.cmd then some e.1
      else target) := by
  obtain ⟨hfree, htarget⟩ := h
  have hmem : ∀ x, x ∈ entries ++ [e] ↔ x ∈ entries ∨ x = e := fun x => by
    rw [List.mem_append, List.mem_singleton]
  -- an entry that is neither joined nor blocks changes nothing
  have hkeep : (¬ e.2.Joins request ∨ ∃ id, target = some id) → ¬ e.2.Blocks request →
      FoldScan request (entries ++ [e]) target := by
    intro hjoins hblocks
    refine ⟨fun x hx hxj hold => ?_, fun id hid => ?_⟩
    · rcases (hmem x).mp hx with hx | rfl
      · obtain ⟨y, hy, hlt, hb⟩ := hfree x hx hxj hold
        exact ⟨y, (hmem y).mpr (Or.inl hy), hlt, hb⟩
      · rcases hjoins with hnot | ⟨id, hid⟩
        · exact absurd hxj hnot
        · -- the target stands before the new entry
          obtain ⟨⟨pending, hp, -⟩, -⟩ := htarget id hid
          have h₁ := hlast _ hp
          have h₂ := hold id hid
          exact absurd h₁ (Nat.lt_asymm h₂)
    · obtain ⟨⟨pending, hp, hj⟩, hall⟩ := htarget id hid
      refine ⟨⟨pending, (hmem _).mpr (Or.inl hp), hj⟩, fun x hx hb => ?_⟩
      rcases (hmem x).mp hx with hx | rfl
      · exact hall x hx hb
      · exact absurd hb hblocks
  by_cases hline : e.2.line = request.line
  · rw [if_neg (by simpa using hline)]
    by_cases hex : e.2.cmd.isExclusive = true
    · -- a store: nothing before it may be joined
      rw [if_pos hex]
      refine ⟨fun x hx hxj _ => ?_, fun id hid => by cases hid⟩
      rcases (hmem x).mp hx with hx | rfl
      · exact ⟨e, (hmem e).mpr (Or.inr rfl), hlast x hx, hline, hex⟩
      · exact absurd ⟨hline, hex⟩ (Coalesced.not_blocks_of_joins hread hxj)
    · rw [if_neg hex]
      have hblocks : ¬ e.2.Blocks request := fun hb => hex hb.2
      split
      · -- the first load behind the last store
        rename_i hnew
        simp only [Bool.and_eq_true, Option.isNone_iff_eq_none, beq_iff_eq] at hnew
        obtain ⟨hnone, hcmd⟩ := hnew
        subst hnone
        refine ⟨fun x hx hxj hold => ?_, fun id hid => ?_⟩
        · rcases (hmem x).mp hx with hx | rfl
          · obtain ⟨y, hy, hlt, hb⟩ := hfree x hx hxj (fun id hid => by cases hid)
            exact ⟨y, (hmem y).mpr (Or.inl hy), hlt, hb⟩
          · exact absurd (hold _ rfl) (Nat.lt_irrefl _)
        · cases hid
          refine ⟨⟨e.2, (hmem _).mpr (Or.inr rfl), hline, hcmd⟩, fun x hx hb => ?_⟩
          rcases (hmem x).mp hx with hx | rfl
          · exact hlast x hx
          · exact absurd hb hblocks
      · rename_i hold
        refine hkeep ?_ hblocks
        cases htgt : target with
        | some id => exact Or.inr ⟨id, rfl⟩
        | none =>
          refine Or.inl fun hj => hold ?_
          rw [htgt, hj.2]
          simp
  · rw [if_pos (by simpa using hline)]
    exact hkeep (Or.inl fun hj => hline hj.1) fun hb => hline hb.1

/-- The whole scan. -/
theorem foldScan_foldTarget? (a : Allocator) {request : Coalesced} (hread : request.cmd = .read) :
    FoldScan request a.outstanding.entries (a.foldTarget? request) := by
  -- the entries seen so far, and those yet to come
  have hgo : ∀ (rest done : List (Nat × Coalesced)) (target : Option Nat),
      (done ++ rest).Pairwise (fun x y => x.1 < y.1) → FoldScan request done target →
      FoldScan request (done ++ rest) (rest.foldl (fun target entry =>
        if entry.2.line != request.line then target
        else if entry.2.cmd.isExclusive then none
        else if target.isNone && entry.2.cmd == request.cmd then some entry.1
        else target) target) := by
    intro rest
    induction rest with
    | nil =>
      intro done target _ h
      rw [List.append_nil]
      exact h
    | cons e rest ih =>
      intro done target hasc h
      have hlast : ∀ x ∈ done, x.1 < e.1 := fun x hx =>
        (List.pairwise_append.mp hasc).2.2 x hx e List.mem_cons_self
      have hnext := ih (done ++ [e]) _ (by rwa [List.append_assoc]) (h.snoc hread hlast)
      rwa [List.append_assoc] at hnext
  have hstart : FoldScan request [] none := ⟨nofun, nofun⟩
  exact hgo a.outstanding.entries [] none a.outstanding.ascending hstart

/-- **The load that is chosen**: it can be joined, no store of its line came
after it, and every older load of the line has a store behind it. -/
theorem foldTarget?_eq_some {a : Allocator} {request : Coalesced} (hread : request.cmd = .read)
    {id : Nat} (h : a.foldTarget? request = some id) :
    (∃ pending, a.outstanding.get? id = some pending ∧ pending.Joins request) ∧
      (∀ k entry, a.outstanding.get? k = some entry → entry.Blocks request → k < id) ∧
      ∀ j entry, a.outstanding.get? j = some entry → entry.Joins request → j < id →
        ∃ k store, a.outstanding.get? k = some store ∧ j < k ∧ store.Blocks request := by
  have hscan := foldScan_foldTarget? a hread
  rw [h] at hscan
  obtain ⟨hfree, htarget⟩ := hscan
  obtain ⟨⟨pending, hmem, hjoins⟩, hall⟩ := htarget id rfl
  refine ⟨⟨pending, (AscMap.mem_entries_iff _ _ _).mp hmem, hjoins⟩, ?_, ?_⟩
  · intro k entry hk hblocks
    exact hall (k, entry) ((AscMap.mem_entries_iff _ _ _).mpr hk) hblocks
  · intro j entry hj hjoin hlt
    obtain ⟨⟨k, store⟩, hk, hjk, hblocks⟩ := hfree (j, entry)
      ((AscMap.mem_entries_iff _ _ _).mpr hj) hjoin fun i hi => by cases hi; exact hlt
    exact ⟨k, store, (AscMap.mem_entries_iff _ _ _).mp hk, hjk, hblocks⟩

/-- **No load is chosen** only where every load of the line has a store behind
it. -/
theorem foldTarget?_eq_none {a : Allocator} {request : Coalesced} (hread : request.cmd = .read)
    (h : a.foldTarget? request = none) {j : Nat} {entry : Coalesced}
    (hj : a.outstanding.get? j = some entry) (hjoins : entry.Joins request) :
    ∃ k store, a.outstanding.get? k = some store ∧ j < k ∧ store.Blocks request := by
  have hscan := foldScan_foldTarget? a hread
  rw [h] at hscan
  obtain ⟨⟨k, store⟩, hk, hjk, hblocks⟩ := hscan.1 (j, entry)
    ((AscMap.mem_entries_iff _ _ _).mpr hj) hjoins fun i hi => by cases hi
  exact ⟨k, store, (AscMap.mem_entries_iff _ _ _).mp hk, hjk, hblocks⟩

theorem foldInTime?_eq_some {a a' : Allocator} {request : Coalesced} {id folded : Nat}
    (h : a.foldInTime? request = some (id, folded, a')) :
    a.foldTarget? request = some id ∧
      ∃ pending merged, a.outstanding.get? id = some pending ∧
        pending.absorb? request = some merged ∧
        a' = { a with outstanding := a.outstanding.insert id merged } := by
  unfold foldInTime? at h
  simp only [Option.bind_eq_bind, Option.bind_eq_some_iff, Option.pure_def] at h
  obtain ⟨id', htarget, pending, hpending, merged, hmerged, heq⟩ := h
  cases heq
  exact ⟨htarget, pending, merged, hpending, hmerged, rfl⟩

/-- All transactions of a request join. -/
theorem size_foldInTime? {a a' : Allocator} {request : Coalesced} {id folded : Nat}
    (h : a.foldInTime? request = some (id, folded, a')) : folded = request.folded.length + 1 := by
  unfold foldInTime? at h
  simp only [Option.bind_eq_bind, Option.bind_eq_some_iff, Option.pure_def] at h
  obtain ⟨_, _, _, _, _, _, heq⟩ := h
  cases heq
  rfl

/-- **A load that is chosen can always be joined.** -/
theorem foldInTime?_eq_none_iff {a : Allocator} {request : Coalesced}
    (hread : request.cmd = .read) :
    a.foldInTime? request = none ↔ a.foldTarget? request = none := by
  constructor
  · intro h
    cases htarget : a.foldTarget? request with
    | none => rfl
    | some id =>
      obtain ⟨⟨pending, hpending, hline, hcmd⟩, -⟩ := foldTarget?_eq_some hread htarget
      unfold foldInTime? at h
      rw [htarget] at h
      simp [hpending, Coalesced.absorb?, hline, hcmd, hread, Command.isCoalescable] at h
  · intro h
    unfold foldInTime?
    rw [h]
    rfl

end Allocator
end MemPort
