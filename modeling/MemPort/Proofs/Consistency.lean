import MemPort.Proofs.Generators

/-!
# Generators, the memory and what is on its way

What is known of each port is put together: the generators of all ports, the
accesses that wait on each port, the completions that are due, and the memory.
The counter in the memory tells how many increments took effect, and the port
that holds its reservation has that value.  So a store-conditional that succeeds
stores the next one.

## Main definitions

* `dueTo` — the completions that are due to a port.
* `Consistent` — what is known of all ports together.

## Main results

* `Consistent.performed`, `Consistent.serially` — the memory performs
  accesses.
* `Consistent.receive` — a completion is handed out.
* `Consistent.replaced` — a generator has its turn.

## References

`SPEC_FULL.md`, section 10.7: the counter is incremented by LL/SC loops, and its
reservation.
-/

namespace MemPort

/-- The completions among some that are due to a port, in order. -/
def dueTo (port : Nat) (due : List (Nat × Response)) : List Response :=
  due.filterMap fun c => if c.1 = port then some c.2 else none

theorem dueTo_append (port : Nat) (due due' : List (Nat × Response)) :
    dueTo port (due ++ due') = dueTo port due ++ dueTo port due' := List.filterMap_append

theorem dueTo_cons (port : Nat) (c : Nat × Response) (due : List (Nat × Response)) :
    dueTo port (c :: due) = (if c.1 = port then [c.2] else []) ++ dueTo port due := by
  unfold dueTo
  by_cases h : c.1 = port <;> simp [h]

theorem dueTo_concat_self (port : Nat) (due : List (Nat × Response)) (r : Response) :
    dueTo port (due ++ [(port, r)]) = dueTo port due ++ [r] := by
  rw [dueTo_append, dueTo_cons, if_pos rfl]
  rfl

theorem dueTo_concat_of_ne {port q : Nat} (hne : port ≠ q) (due : List (Nat × Response))
    (r : Response) :
    dueTo q (due ++ [(port, r)]) = dueTo q due := by
  rw [dueTo_append, dueTo_cons, if_neg hne]
  exact List.append_nil _

/-- What is known of all ports together, where `n` increments took effect. -/
structure Consistent (w : Scenario) (now : Nat) (lanes : List Generator)
    (waiting : Nat → List Transaction)
    (due : List (Nat × Response)) (d : DelayedMemory) (n : Nat) : Prop where
  /-- There is a generator for every port. -/
  length_eq : lanes.length = w.numPorts
  /-- What is known of each of them. -/
  lane : ∀ port g, lanes[port]? = some g →
    Assured w port now g (waiting port) (dueTo port due) d.memory.contents
  /-- Completions are due to ports that exist. -/
  port_lt : ∀ c ∈ due, c.1 < w.numPorts
  /-- The regions and the counter are in the memory. -/
  stop_le : w.stop ≤ d.memory.size
  /-- Reservations are for granules. -/
  granule : isPowerOfTwo d.config.reservationBytes = true
  /-- The counter tells the number of increments. -/
  counter_eq : w.counterIn d = wordBytes n
  /-- The port that holds the reservation of the counter has its value. -/
  holder : ∀ port, d.reservation? w.counterAddr = some port →
    ∃ g, lanes[port]? = some g ∧ g.Holds (waiting port) (dueTo port due) n
  /-- The generators have learned of all increments but those whose completions
  are due. -/
  learned : n = total (lanes.map (·.stats.scSuccesses)) + due.countP (·.2.increments)

namespace Consistent

variable {w : Scenario} {now n : Nat} {lanes lanes' : List Generator}
  {waiting waiting' : Nat → List Transaction} {due due' : List (Nat × Response)}
  {d d' : DelayedMemory}

/-! ### What does not matter -/

theorem perm (h : Consistent w now lanes waiting due d n) (hperm : due.Perm due') :
    Consistent w now lanes waiting due' d n := by
  have hdue : ∀ port, (dueTo port due).Perm (dueTo port due') := fun _ => hperm.filterMap _
  refine { h with
    lane := fun port g hg => (h.lane port g hg).perm (hdue port)
    port_lt := fun c hc => h.port_lt c (hperm.mem_iff.mpr hc)
    holder := fun port hport => ?_
    learned := ?_ }
  · obtain ⟨g, hg, hn⟩ := h.holder port hport
    refine ⟨g, hg, ?_⟩
    cases hn with
    | coming hr hcmd hdata => exact .coming ((hdue port).mem_iff.mp hr) hcmd hdata
    | here hv hnext => exact .here hv hnext
    | going ht hcmd hdata => exact .going ht hcmd hdata
  · rw [← hperm.countP_eq]
    exact h.learned

theorem of_agrees (h : Consistent w now lanes waiting due d n) (hd : d.Agrees d') :
    Consistent w now lanes waiting due d' n := by
  have hreservation := hd.reservation?_eq w.counterAddr
  refine { h with
    lane := by
      rw [hd.memory]
      exact h.lane
    stop_le := by
      rw [hd.memory]
      exact h.stop_le
    granule := hd.config ▸ h.granule
    counter_eq := ?_
    holder := ?_ }
  · unfold Scenario.counterIn
    rw [hd.memory]
    exact h.counter_eq
  · rw [hreservation]
    exact h.holder

/-- Generators may change in what their promises do not depend on. -/
theorem of_core (h : Consistent w now lanes waiting due d n)
    (hlanes : lanes'.map Generator.core = lanes.map Generator.core) :
    Consistent w now lanes' waiting due d n := by
  -- the invariant reads of a generator no more than its core
  have hget : ∀ port : Nat, lanes'[port]?.map Generator.core =
      lanes[port]?.map Generator.core := by
    intro port
    rw [← List.getElem?_map, ← List.getElem?_map, hlanes]
  refine { h with
    length_eq := ?_
    lane := fun port g hg => ?_
    holder := fun port hport => ?_
    learned := ?_ }
  · have hlength := congrArg List.length hlanes
    rw [List.length_map, List.length_map] at hlength
    exact hlength.trans h.length_eq
  · have hcore := hget port
    rw [hg] at hcore
    obtain ⟨g₀, hg₀, hcore⟩ := Option.map_eq_some_iff.mp hcore.symm
    exact (h.lane port g₀ hg₀).of_essence (congrArg Prod.fst hcore).symm
  · obtain ⟨g₀, hg₀, hn⟩ := h.holder port hport
    have hcore := hget port
    rw [hg₀] at hcore
    obtain ⟨g, hg, hcore⟩ := Option.map_eq_some_iff.mp hcore
    exact ⟨g, hg, Assured.holds_of_essence (congrArg Prod.fst hcore) hn⟩
  · have hsuccesses := congrArg (List.map fun c => c.2.2) hlanes
    rw [List.map_map, List.map_map] at hsuccesses
    rw [show lanes'.map (·.stats.scSuccesses) = lanes.map (·.stats.scSuccesses) from hsuccesses]
    exact h.learned

theorem mono {now' : Nat} (h : Consistent w now lanes waiting due d n) (hle : now ≤ now') :
    Consistent w now' lanes waiting due d n :=
  { h with lane := fun port g hg => (h.lane port g hg).mono hle }

theorem of_waiting (h : Consistent w now lanes waiting due d n)
    (hwaiting : ∀ port < w.numPorts, waiting' port = waiting port) :
    Consistent w now lanes waiting' due d n := by
  have hlt : ∀ {port g}, lanes[port]? = some g → port < w.numPorts := fun hg =>
    h.length_eq ▸ (List.getElem?_eq_some_iff.mp hg).1
  refine { h with
    lane := fun port g hg => ?_
    holder := fun port hport => ?_ }
  · rw [hwaiting port (hlt hg)]
    exact h.lane port g hg
  · obtain ⟨g, hg, hn⟩ := h.holder port hport
    refine ⟨g, hg, ?_⟩
    rw [hwaiting port (hlt hg)]
    exact hn

/-! ### Accesses are performed -/

theorem sited (h : Consistent w now lanes waiting due d n) {port : Nat} (hport : port < w.numPorts)
    {t : Transaction} (ht : t ∈ waiting port) : w.Sited port t :=
  (h.lane port _ (List.getElem?_eq_getElem (h.length_eq ▸ hport))).sited t ht

/-- While an access that is not for the counter is performed, its value stays on
its way. -/
theorem holds_performed {o : Origin} {r : Response} {port : Nat} {g : Generator}
    (hwaiting : waiting port = (if o.port = port then [o.txn] else []) ++ waiting' port)
    (happart : o.txn.cmd.isLinked = false) (hn : g.Holds (waiting port) (dueTo port due) n) :
    g.Holds (waiting' port) (dueTo port (due ++ [(o.port, r)])) n := by
  cases hn with
  | coming hr hload hdata =>
    refine .coming ?_ hload hdata
    rw [dueTo_append]
    exact List.mem_append_left _ hr
  | here hv hnext => exact .here hv hnext
  | going ht hstore hdata =>
    refine .going ?_ hstore hdata
    -- the store-conditional is not the access just performed
    rw [hwaiting, List.mem_append] at ht
    rcases ht with ht | ht
    · split at ht
      · rw [List.mem_singleton.mp ht] at hstore
        rw [hstore] at happart
        cases happart
      · cases ht
    · exact ht

/-- **The port that holds the reservation of the counter stores the next value.** -/
theorem data_of_held {port : Nat} {t : Transaction} {ts : List Transaction}
    (h : Consistent w now lanes waiting due d n) (hwaiting : waiting port = t :: ts)
    (hstore : t.cmd = .storeCond) (hheld : d.reservation? w.counterAddr = some port) :
    t.data = wordBytes (n + 1) := by
  obtain ⟨g, hg, hn⟩ := h.holder port hheld
  -- the port has no other access to the counter, so the value that it has is the
  -- one that it stores
  have hlinked := (h.lane port g hg).linked
  rw [hwaiting, List.countP_cons, if_pos (hstore ▸ rfl)] at hlinked
  cases hn with
  | coming hr hload _ =>
    have hpos : 0 < (dueTo port due).countP (·.cmd.isLinked) :=
      List.countP_pos_iff.mpr ⟨_, hr, hload ▸ rfl⟩
    omega
  | here hv _ =>
    rw [hv, Option.toList_some, List.length_singleton] at hlinked
    omega
  | going ht hcond hdata =>
    have hone : (t :: ts).countP (·.cmd.isLinked) ≤ 1 := by
      rw [List.countP_cons, if_pos (hstore ▸ rfl)]
      omega
    rw [hwaiting] at ht
    have hsame := eq_of_countP_le_one hone (hstore ▸ rfl) ht (hcond ▸ rfl)
    rw [← hsame]
    exact hdata

/-- While an access is performed, the counter keeps telling the number of
increments. -/
theorem counter_performed {o : Origin} {r : Response} {ts : List Transaction}
    (h : Consistent w now lanes waiting due d n) (hfirst : waiting o.port = o.txn :: ts)
    (hcmd : r.cmd = o.txn.cmd) (hminds : w.Minds d d' o r) :
    w.counterIn d' = wordBytes (n + if r.increments then 1 else 0) := by
  -- a store that succeeds moves the counter, and its data is the next value
  cases hminds with
  | apart happart hcounter _ =>
    have hne : r.cmd ≠ .storeCond := fun hstore => by
      rw [hcmd.symm.trans hstore] at happart
      cases happart
    rw [hcounter, Response.increments_of_ne hne]
    exact h.counter_eq
  | loaded hload hcounter _ _ =>
    rw [hcounter, Response.increments_of_ne (by rw [hcmd, hload]; nofun)]
    exact h.counter_eq
  | stored hstore hsuccess hheld hcounter _ =>
    unfold Response.increments
    rw [hcounter, hcmd, hstore, hsuccess]
    exact h.data_of_held hfirst hstore hheld
  | failed hstore hsuccess hcounter _ =>
    unfold Response.increments
    rw [hcounter, hsuccess, Bool.and_false]
    exact h.counter_eq

/-- While an access is performed, the port that holds the reservation of the
counter has its value. -/
theorem holder_performed {o : Origin} {r : Response} (h : Consistent w now lanes waiting due d n)
    (hport : o.port < w.numPorts)
    (hwaiting : ∀ q, waiting q = (if o.port = q then [o.txn] else []) ++ waiting' q)
    (hcmd : r.cmd = o.txn.cmd) (hminds : w.Minds d d' o r) {port : Nat}
    (hheld : d'.reservation? w.counterAddr = some port) :
    ∃ g, lanes[port]? = some g ∧ g.Holds (waiting' port) (dueTo port (due ++ [(o.port, r)]))
      (n + if r.increments then 1 else 0) := by
  cases hminds with
  | apart happart _ hheld' =>
    have hne : r.cmd ≠ .storeCond := fun hstore => by
      rw [hcmd.symm.trans hstore] at happart
      cases happart
    obtain ⟨g, hg, hn⟩ := h.holder port (hheld' port hheld)
    rw [Response.increments_of_ne hne]
    exact ⟨g, hg, holds_performed (hwaiting port) happart hn⟩
  -- the generator of the load is the holder, with the answer still to come
  | loaded hload _ hdata hheld' =>
    rw [hheld'] at hheld
    cases hheld
    rw [Response.increments_of_ne (by rw [hcmd, hload]; nofun), dueTo_concat_self]
    refine ⟨_, List.getElem?_eq_getElem (h.length_eq ▸ hport), ?_⟩
    exact .coming (List.mem_append_right _ (List.mem_singleton_self _)) (hcmd.trans hload)
      (hdata.trans h.counter_eq)
  -- a store-conditional leaves no reservation, whether it succeeds or not
  | stored _ _ _ _ hfree =>
    rw [hfree] at hheld
    cases hheld
  | failed _ _ _ hfree =>
    rw [hfree] at hheld
    cases hheld

/-- **The memory performs the oldest access that waits on a port.** -/
theorem performed {o : Origin} {id : Nat} {answer : BackendResponse}
    (h : Consistent w now lanes waiting due d n) (hport : o.port < w.numPorts)
    (hwaiting : ∀ q, waiting q = (if o.port = q then [o.txn] else []) ++ waiting' q)
    (hperform : d.perform (o.alone id) = .ok (answer, d')) :
    Consistent w now lanes waiting'
      (due ++ [(o.port, o.txn.completion answer.data answer.success)]) d'
      (n + if (o.txn.completion answer.data answer.success).increments then 1 else 0) := by
  have hfirst : waiting o.port = o.txn :: waiting' o.port := by
    rw [hwaiting, if_pos rfl]
    rfl
  have hother : ∀ q, o.port ≠ q → waiting q = waiting' q := fun q hne => by
    rw [hwaiting, if_neg hne, List.nil_append]
  have hsited : w.Sited o.port o.txn := h.sited hport (hfirst ▸ List.mem_cons_self)
  have hminds := Scenario.minds_of_perform hsited hport h.granule hperform
  have hfulfils := Scenario.fulfils_of_perform hsited hperform
  have hsize := DelayedMemory.size_of_perform hperform
  have hconfig := (DelayedMemory.of_perform hperform).2.1
  have hcmd : (o.txn.completion answer.data answer.success).cmd = o.txn.cmd := rfl
  have htag : (o.txn.completion answer.data answer.success).tag = o.txn.tag := rfl
  -- only what the answer says of the access matters from here on
  generalize o.txn.completion answer.data answer.success = r at hminds hfulfils hcmd htag ⊢
  refine {
    length_eq := h.length_eq
    lane := fun port g hg => ?_
    port_lt := fun c hc => ?_
    stop_le := hsize ▸ h.stop_le
    granule := hconfig ▸ h.granule
    counter_eq := h.counter_performed hfirst hcmd hminds
    holder := fun _ hheld => h.holder_performed hport hwaiting hcmd hminds hheld
    learned := ?_ }
  -- the generator of the access is owed its answer, the others do not notice it
  · by_cases hq : o.port = port
    · subst hq
      rw [dueTo_concat_self]
      refine Assured.performed (hfirst ▸ h.lane _ g hg) htag hcmd hfulfils ?_
      exact Scenario.sameFor_applied hsited hport hperform
    · rw [dueTo_concat_of_ne hq, ← hother port hq]
      have hlt : port < w.numPorts := h.length_eq ▸ (List.getElem?_eq_some_iff.mp hg).1
      exact (h.lane port g hg).sameFor (Scenario.sameFor_of_perform hsited hlt hq hperform)
  · rcases List.mem_append.mp hc with hc | hc
    · exact h.port_lt c hc
    · rw [List.mem_singleton.mp hc]
      exact hport
  · rw [List.countP_append, List.countP_singleton, ← Nat.add_assoc, ← h.learned]

/-- **The memory performs accesses one after the other**, the oldest of each
port. -/
theorem serially {os : List Origin} {id : Nat} {ds : List (Nat × Nat × Response)}
    (h : Consistent w now lanes waiting due d n) (hports : ∀ o ∈ os, o.port < w.numPorts)
    (hwaiting : ∀ q, waiting q = Origin.txnsOf q os ++ waiting' q)
    (hserial : d.serially (os.map fun o => (id, o)) = .ok (ds, d')) :
    Consistent w now lanes waiting' (due ++ ds.map (·.2)) d'
      (n + ds.countP (·.2.2.increments)) := by
  -- access by access, the first one performed being the first one waiting
  induction os generalizing waiting due d n ds with
  | nil =>
    cases hserial
    rw [List.map_nil, List.append_nil]
    have hsame : waiting = waiting' := funext hwaiting
    exact hsame ▸ h
  | cons o rest ih =>
    obtain ⟨answer, d₁, ds', hperform, hrest, rfl⟩ := DelayedMemory.of_serially_cons hserial
    have hsplit : ∀ q, waiting q =
        (if o.port = q then [o.txn] else []) ++ (Origin.txnsOf q rest ++ waiting' q) := fun q => by
      rw [hwaiting, Origin.txnsOf_cons, List.append_assoc]
    have hfirst := h.performed (hports o List.mem_cons_self) hsplit hperform
    have hall :=
      ih hfirst (fun o' ho' => hports o' (List.mem_cons_of_mem _ ho')) (fun _ => rfl) hrest
    rw [List.append_assoc, Nat.add_assoc] at hall
    rw [List.map_cons, List.countP_cons, Nat.add_comm (List.countP _ _)]
    exact hall

/-! ### A generator acts -/

/-- The generator of a port goes on, and what concerns the other ports stays as
it was. -/
theorem set {port now' : Nat} {g g' : Generator} (h : Consistent w now lanes waiting due d n)
    (hg : lanes[port]? = some g) (hle : now ≤ now')
    (hlane : Assured w port now' g' (waiting' port) (dueTo port due') d.memory.contents)
    (hholds : g.Holds (waiting port) (dueTo port due) n →
      g'.Holds (waiting' port) (dueTo port due') n)
    (hother : ∀ q, port ≠ q → waiting' q = waiting q ∧ dueTo q due' = dueTo q due)
    (hports : ∀ c ∈ due', c.1 < w.numPorts)
    (hlearned : g'.stats.scSuccesses + due'.countP (·.2.increments) =
      g.stats.scSuccesses + due.countP (·.2.increments)) :
    Consistent w now' (lanes.set port g') waiting' due' d n := by
  have hlt := (List.getElem?_eq_some_iff.mp hg).1
  refine {
    length_eq := (List.length_set ..).trans h.length_eq
    lane := fun q g₁ hg₁ => ?_
    port_lt := hports
    stop_le := h.stop_le
    granule := h.granule
    counter_eq := h.counter_eq
    holder := fun q hq => ?_
    learned := ?_ }
  -- the generator replaced has its own proof, the others are as they were
  · by_cases heq : port = q
    · subst heq
      rw [List.getElem?_set_self hlt] at hg₁
      cases hg₁
      exact hlane
    · rw [List.getElem?_set_ne heq] at hg₁
      rw [(hother q heq).1, (hother q heq).2]
      exact (h.lane q g₁ hg₁).mono hle
  · obtain ⟨g₁, hg₁, hn⟩ := h.holder q hq
    by_cases heq : port = q
    · subst heq
      rw [hg] at hg₁
      cases hg₁
      exact ⟨g', List.getElem?_set_self hlt, hholds hn⟩
    · rw [(hother q heq).1, (hother q heq).2]
      exact ⟨g₁, (List.getElem?_set_ne heq).trans hg₁, hn⟩
  · have hsum : total ((lanes.set port g').map (·.stats.scSuccesses)) + g.stats.scSuccesses =
        total (lanes.map (·.stats.scSuccesses)) + g'.stats.scSuccesses := by
      rw [List.map_set]
      exact total_set (by rw [List.getElem?_map, hg]; rfl)
    have hold := h.learned
    omega

/-- **A generator has its turn.** -/
theorem replaced {port now' : Nat} {g g' : Generator} (h : Consistent w now lanes waiting due d n)
    (hg : lanes[port]? = some g) (hle : now ≤ now')
    (hgoes : Assured.Goes w port now' g g' (waiting port) (waiting' port) (dueTo port due)
      d.memory.contents) (hother : ∀ q, port ≠ q → waiting' q = waiting q) :
    Consistent w now' (lanes.set port g') waiting' due d n :=
  h.set hg hle hgoes.lane (hgoes.holds n) (fun q hq => ⟨hother q hq, rfl⟩) h.port_lt
    (congrArg (· + _) hgoes.successes)

/-- **A completion is handed out**, and found right. -/
theorem receive {port : Nat} {r : Response} {g : Generator}
    (h : Consistent w now lanes waiting ((port, r) :: due) d n) (hg : lanes[port]? = some g) :
    (∃ g', (g.receive r).value = (.ok (), g') ∧ g'.pending = g.pending ∧
      g'.blocked = g.blocked ∧
      Consistent w now (lanes.set port g') waiting due d n) ∨
    (g.receive r).value.1 = .error .overflow ∧ maxWord < min w.maxInflight now * now := by
  have hlane := h.lane port g hg
  -- the answer is the first one due to its generator, and due to no other
  have hself : dueTo port ((port, r) :: due) = r :: dueTo port due := by
    rw [dueTo_cons, if_pos rfl]
    rfl
  rw [hself] at hlane
  rcases hlane.receive with
    ⟨g', hvalue, hlane', hpending, hblocked, hscValue, hsuccesses⟩ | hbroken
  · refine Or.inl ⟨g', hvalue, hpending, hblocked, ?_⟩
    refine h.set hg (Nat.le_refl _) hlane' (fun hn => ?_) (fun q hq => ⟨rfl, ?_⟩)
      (fun c hc => h.port_lt c (List.mem_cons_of_mem _ hc)) ?_
    · rw [hself] at hn
      exact hlane.holds_received hn hscValue
    · rw [dueTo_cons, if_neg hq]
      rfl
    · rw [hsuccesses, List.countP_cons, Nat.add_assoc, Nat.add_comm (List.countP _ _)]
  · exact Or.inr hbroken

end Consistent

end MemPort
