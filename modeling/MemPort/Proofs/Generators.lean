import MemPort.Proofs.Entries
import MemPort.Proofs.Promises

/-!
# What a generator relies on

A generator checks every completion, so it is right to find nothing wrong only
if the rest of the system keeps a promise for each access that it awaits.
`Assured` says what is known of one port: the accesses that wait to be performed
will bring what the generator expects, and the completions that are due to it
do.

Of the accesses to the counter a port has one at a time.  Between a load-locked
that was performed and its store-conditional the value of the counter is on its
way to the port or back: the port `Holds` it.

## Main definitions

* `Generator.essence` — a generator without what its promises do not depend
  on.
* `Assured` — what is known of a generator, with the accesses that wait and
  the completions that are due.
* `Generator.Holds` — a port has the value of the counter.
* `Assured.Goes` — a generator went on, and what is known of it still holds.

## Main results

* `Assured.performed`, `Assured.sameFor` — the memory performs an access of
  the port, or of another.
* `Assured.receive` — a completion that is due is found right.
* `Assured.tick` — in its part of a cycle a generator makes an access that
  will bring what it expects.

## References

`SPEC_FULL.md`, section 10.7: the synthetic requestor and its checks.
-/

namespace MemPort

/-! ### Words -/

theorem lowByte_congr {a b : Nat} (h : a % 256 = b % 256) : lowByte a = lowByte b := by
  apply UInt8.toNat_inj.mp
  show a.toUInt8.toNat = b.toUInt8.toNat
  simpa using h

/-- The bytes of a word tell it up to its 32 lowest bits. -/
theorem wordBytes_congr {a b : Nat} (h : a % 0x100000000 = b % 0x100000000) :
    wordBytes a = wordBytes b := by
  unfold wordBytes
  simp only [Nat.shiftRight_eq_div_pow]
  rw [lowByte_congr (a := a) (b := b) (by omega),
    lowByte_congr (a := a / 2 ^ 8) (b := b / 2 ^ 8) (by omega),
    lowByte_congr (a := a / 2 ^ 16) (b := b / 2 ^ 16) (by omega),
    lowByte_congr (a := a / 2 ^ 24) (b := b / 2 ^ 24) (by omega)]

theorem length_wordBytes (n : Nat) : (wordBytes n).length = Generator.counterBytes := rfl

theorem wordOfBytes_wordBytes (n : Nat) : wordOfBytes (wordBytes n) = n % 0x100000000 := by
  have hbyte : ∀ k : Nat, (lowByte k).toNat = k % 256 := fun k => by
    show k.toUInt8.toNat = _
    simp
  unfold wordBytes
  simp only [wordOfBytes, hbyte, Nat.shiftRight_eq_div_pow, Nat.shiftLeft_eq]
  omega

/-- The value that a port stores after it has loaded the counter. -/
theorem wordBytes_next (n : Nat) :
    wordBytes ((wordOfBytes (wordBytes n) + 1) % 1 <<< 32) = wordBytes (n + 1) := by
  apply wordBytes_congr
  rw [wordOfBytes_wordBytes]
  show (n % 0x100000000 + 1) % 0x100000000 % 0x100000000 = _
  omega

/-- Of two elements that pass a test, where one passes, both are the same. -/
theorem eq_of_countP_le_one {α : Type} {p : α → Bool} {a b : α} {l : List α}
    (h : (a :: l).countP p ≤ 1) (ha : p a = true) (hb : b ∈ a :: l)
    (hpb : p b = true) : b = a := by
  rcases List.mem_cons.mp hb with rfl | hb
  · rfl
  · have hpos : 0 < l.countP p := List.countP_pos_iff.mpr ⟨b, hb, hpb⟩
    rw [List.countP_cons_of_pos ha] at h
    omega

/-! ### Generators -/

theorem Command.apart_of_isLinked {c : Command} (h : c.isLinked = false) :
    c ≠ .loadLocked ∧ (c == .storeCond) = false := by
  cases c with
  | loadLocked => cases h
  | storeCond => cases h
  | read => decide
  | write => decide
  | swap => decide

/-- Whether a completion tells of an increment that took effect. -/
def Response.increments (r : Response) : Bool := r.cmd == .storeCond && r.success

theorem Response.increments_of_ne {r : Response} (h : r.cmd ≠ .storeCond) :
    r.increments = false := by
  unfold increments
  rw [beq_eq_false_iff_ne.mpr h, Bool.false_and]

namespace Generator

/-- What is expected of the completion under a tag. -/
def expects (g : Generator) (tag : Nat) : Option Expectation :=
  (g.inflight.get? tag).map (·.expectation)

/-- What an access of the port must find at an address of a region. -/
def sees (g : Generator) : Region → Nat → UInt8
  | .sharedRegion, addr => fillByte addr
  | .privateRegion, addr => g.shadow.byteAt addr

/-- The cycles for which the accesses in flight have been waiting, together. -/
def waited (g : Generator) : Nat := total (g.inflight.entries.map fun e => g.now - e.2.issuedAt)

/-- An access goes to its offset from the start of its region. -/
theorem target_eq (g : Generator) (region : Region) (offset : Nat) :
    g.target region offset = g.layout.startOf g.port region + offset := by
  cases region <;> rfl

/-- A generator without what its promises do not depend on: where it stands in
its patterns, the access that was refused, and most of its counters. -/
def essence (g : Generator) : Generator :=
  { g with
    pattern := 0
    reqIndex := 0
    phase := .running
    pending := none
    blocked := false
    stats := { totalLatency := g.stats.totalLatency } }

/-- The part of a generator that the other parts of the system may not disturb. -/
def core (g : Generator) : Generator × Option Transaction × Nat :=
  (g.essence, g.pending, g.stats.scSuccesses)

/-- A port has the value of the counter. -/
inductive Holds (g : Generator) (waiting : List Transaction) (due : List Response) (n : Nat) : Prop
  /-- It is on its way to the port. -/
  | coming {r : Response} (hr : r ∈ due) (hcmd : r.cmd = .loadLocked)
      (hdata : r.data = wordBytes n)
  /-- The port knows what to store. -/
  | here {value : Nat} (hvalue : g.scValue = some value)
      (hnext : wordBytes value = wordBytes (n + 1))
  /-- The store waits. -/
  | going {t : Transaction} (ht : t ∈ waiting) (hcmd : t.cmd = .storeCond)
      (hdata : t.data = wordBytes (n + 1))

/-- What a port knows of the counter after a completion. -/
def learned (g : Generator) (r : Response) : Option Nat :=
  if r.cmd = .loadLocked then
    some ((wordOfBytes (r.data.take counterBytes) + 1) % 1 <<< 32)
  else g.scValue

/-- One more access waits, and what the port knows to store stays as it was. -/
theorem Holds.concat {g g' : Generator} {t : Transaction} {waiting : List Transaction}
    {due : List Response} {n : Nat} (hvalue : g'.scValue = g.scValue) (h : g.Holds waiting due n) :
    g'.Holds (waiting ++ [t]) due n := by
  cases h with
  | coming hr hcmd hdata => exact .coming hr hcmd hdata
  | here hv hnext => exact .here (hvalue.trans hv) hnext
  | going ht hcmd hdata => exact .going (List.mem_append_left _ ht) hcmd hdata

theorem expected_eq (g : Generator) (region : Region) (addr size : Nat) :
    g.expected region addr size = (span addr size).map (g.sees region) := by
  cases region <;> rfl

end Generator

/-- All addresses on the way of an access are below the end of the memory. -/
theorem Scenario.lastComputed_le {w : Scenario} {p : Pattern} {port : Nat}
    (hp : p ∈ w.set.patterns) (hport : port < w.numPorts) (raw : Nat) :
    Generator.lastComputed p (w.layout.startOf port p.region + p.place raw) ≤ maxWord := by
  have hle := RegionLayout.covers_le (Scenario.covers_target hp port raw).1 hport
  have hstop := w.stop_le
  have hline := w.counter_le
  unfold RegionLayout.stop at hstop
  unfold Generator.counterBytes at hline
  unfold Generator.lastComputed
  cases p.op <;> simp only <;> omega

/-- With more cycles there may be more accesses in flight. -/
theorem Scenario.min_maxInflight_le (w : Scenario) {t t' : Nat} (h : t ≤ t') :
    min w.maxInflight t ≤ min w.maxInflight t' := by
  omega

/-- What is known of a generator, with the accesses that wait to be performed,
the completions that are due to it, and the memory. -/
structure Assured (w : Scenario) (port now : Nat) (g : Generator) (waiting : List Transaction)
    (due : List Response) (m : ByteMap) : Prop where
  /-- It works on its port. -/
  port_eq : g.port = port
  /-- It knows how many ports there are. -/
  numPorts_eq : g.numPorts = w.numPorts
  /-- It knows where the regions lie. -/
  layout_eq : g.layout = w.layout
  /-- It knows how many accesses it may have in flight. -/
  maxInflight_eq : g.maxInflight = w.maxInflight
  /-- It has found nothing wrong. -/
  fault_eq : g.fault = none
  /-- All accesses go where they may. -/
  sited : ∀ t ∈ waiting, w.Sited port t
  /-- They will bring what is expected of them. -/
  promised : Promised g.expects m waiting
  /-- After them, the memory holds what the next access must find. -/
  seen : ∀ region addr, w.layout.Covers port region addr 1 →
    g.sees region addr = (replay m waiting).byteAt addr
  /-- The completions that are due bring what is expected of them. -/
  fulfils : ∀ r ∈ due, ∃ e, g.expects r.tag = some e ∧ Fulfils e r
  /-- Every access has its own tag. -/
  nodup : (waiting.map (·.tag) ++ due.map (·.tag)).Nodup
  /-- The next tag is new. -/
  below : ∀ tag awaited, g.inflight.get? tag = some awaited → tag < g.nextTag
  /-- There is one access to the counter at a time. -/
  linked : waiting.countP (·.cmd.isLinked) + due.countP (·.cmd.isLinked) +
    g.scValue.toList.length ≤ 1
  /-- In a cycle, every access in flight waits for a cycle longer. -/
  latency : g.stats.totalLatency + g.waited ≤ min w.maxInflight g.now * g.now
  /-- No access comes from the future. -/
  issued : ∀ e ∈ g.inflight.entries, e.2.issuedAt ≤ g.now
  /-- There are not more accesses in flight than there may be, nor than there were
  cycles to make them in. -/
  room : g.inflight.size ≤ min w.maxInflight (g.now + 1)
  /-- It is not ahead of time. -/
  clock : g.now ≤ now

namespace Assured

variable {w : Scenario} {port now : Nat} {g g' : Generator} {waiting waiting' : List Transaction}
  {due due' : List Response} {m m' : ByteMap}

/-! ### What does not matter -/

/-- What is known of a generator depends on its essence. -/
theorem of_essence (h : Assured w port now g waiting due m) (he : g'.essence = g.essence) :
    Assured w port now g' waiting due m := by
  have hinflight : g'.inflight = g.inflight := (congrArg Generator.inflight he :)
  have hshadow : g'.shadow = g.shadow := (congrArg Generator.shadow he :)
  have hnow : g'.now = g.now := (congrArg Generator.now he :)
  have hvalue : g'.scValue = g.scValue := (congrArg Generator.scValue he :)
  have hlatency : g'.stats.totalLatency = g.stats.totalLatency :=
    congrArg (fun g => g.stats.totalLatency) he
  have hexpects : g'.expects = g.expects := by
    unfold Generator.expects
    rw [hinflight]
  have hwaited : g'.waited = g.waited := by
    unfold Generator.waited
    rw [hinflight, hnow]
  -- the essence is all the invariant reads
  exact {
    port_eq := (congrArg Generator.port he).trans h.port_eq
    numPorts_eq := (congrArg Generator.numPorts he).trans h.numPorts_eq
    layout_eq := (congrArg Generator.layout he).trans h.layout_eq
    maxInflight_eq := (congrArg Generator.maxInflight he).trans h.maxInflight_eq
    fault_eq := (congrArg Generator.fault he).trans h.fault_eq
    sited := h.sited
    promised := hexpects ▸ h.promised
    seen := fun region addr hcovers => by
      have hsees := h.seen region addr hcovers
      unfold Generator.sees at hsees ⊢
      rw [hshadow]
      exact hsees
    fulfils := hexpects ▸ h.fulfils
    nodup := h.nodup
    below := fun tag awaited hget => by
      rw [hinflight] at hget
      exact Nat.lt_of_lt_of_eq (h.below tag awaited hget) (congrArg Generator.nextTag he).symm
    linked := hvalue ▸ h.linked
    latency := by
      rw [hlatency, hwaited, hnow]
      exact h.latency
    issued := by
      rw [hinflight, hnow]
      exact h.issued
    room := by
      rw [hinflight, hnow]
      exact h.room
    clock := hnow ▸ h.clock }

/-- The order in which completions are due does not matter. -/
theorem perm (h : Assured w port now g waiting due m) (hperm : due.Perm due') :
    Assured w port now g waiting due' m :=
  { h with
    fulfils := fun r hr => h.fulfils r (hperm.mem_iff.mpr hr)
    nodup := ((hperm.map (·.tag)).append_left _).nodup_iff.mp h.nodup
    linked := hperm.countP_eq (·.cmd.isLinked) ▸ h.linked }

/-- Nor does what the port does not see. -/
theorem sameFor (h : Assured w port now g waiting due m) (hm : w.SameFor port m m') :
    Assured w port now g waiting due m' :=
  { h with
    promised := hm.promised h.sited h.promised
    seen := fun region addr hcovers => by
      rw [h.seen region addr hcovers, (hm.replay waiting) addr ⟨region, hcovers⟩] }

/-- Time passes elsewhere. -/
theorem mono {now' : Nat} (h : Assured w port now g waiting due m) (hle : now ≤ now') :
    Assured w port now' g waiting due m := { h with clock := Nat.le_trans h.clock hle }

/-! ### An access is performed -/

/-- The oldest access that waits is performed, and its completion is due. -/
theorem performed {t : Transaction} {r : Response} (h : Assured w port now g (t :: waiting) due m)
    (htag : r.tag = t.tag) (hcmd : r.cmd = t.cmd) (hr : Fulfils (t.promised m) r)
    (hm : w.SameFor port (t.applied m) m') : Assured w port now g waiting (due ++ [r]) m' := by
  obtain ⟨hfirst, hrest⟩ := h.promised
  have hsited : ∀ t' ∈ waiting, w.Sited port t' :=
    fun t' ht' => h.sited t' (List.mem_cons_of_mem _ ht')
  -- the access moves from `waiting` to `due`, and the generator itself stays
  refine { h with
    sited := hsited
    promised := hm.promised hsited hrest
    seen := fun region addr hcovers => ?_
    fulfils := fun r' hr' => ?_
    nodup := ?_
    linked := ?_ }
  · rw [h.seen region addr hcovers, (hm.replay waiting) addr ⟨region, hcovers⟩]
    rfl
  · rcases List.mem_append.mp hr' with hr' | hr'
    · exact h.fulfils r' hr'
    · rw [List.mem_singleton.mp hr', htag]
      exact ⟨_, hfirst, hr⟩
  · have hperm : ((t :: waiting).map (·.tag) ++ due.map (·.tag)).Perm
        (waiting.map (·.tag) ++ (due ++ [r]).map (·.tag)) := by
      rw [List.map_append, List.map_singleton, htag, ← List.append_assoc]
      exact List.perm_append_singleton _ _ |>.symm
    exact hperm.nodup_iff.mp h.nodup
  · have hlinked := h.linked
    rw [List.countP_cons] at hlinked
    rw [List.countP_append, List.countP_singleton, hcmd]
    omega

/-! ### A completion comes back -/

/-- The access that a completion is for is no longer in flight. -/
theorem taken {r : Response} {awaited : Awaited} {stats : GeneratorCounters} {reqIndex : Nat}
    {scValue : Option Nat} (h : Assured w port now g waiting (r :: due) m)
    (hget : g.inflight.get? r.tag = some awaited)
    (hstats : stats.totalLatency = g.stats.totalLatency + (g.now - awaited.issuedAt))
    (hlinked : waiting.countP (·.cmd.isLinked) + due.countP (·.cmd.isLinked) +
      scValue.toList.length ≤ 1) :
    Assured w port now { g with inflight := g.inflight.erase r.tag, stats, reqIndex, scValue }
      waiting due m := by
  have hperm := AscMap.entries_erase_perm hget
  obtain ⟨hwaiting, hdue, hapart⟩ := List.nodup_append.mp h.nodup
  obtain ⟨hfresh, hdue⟩ := List.nodup_cons.mp hdue
  -- the other tags are still in flight
  have hexpects : ∀ tag, tag ≠ r.tag → Generator.expects
      { g with inflight := g.inflight.erase r.tag, stats, reqIndex, scValue } tag =
        g.expects tag := by
    intro tag hne
    unfold Generator.expects
    rw [AscMap.get?_erase, if_neg (Ne.symm hne)]
  refine { h with
    promised := h.promised.mono fun t ht => hexpects _ fun heq => ?_
    seen := fun region addr hcovers => ?_
    fulfils := fun r' hr' => ?_
    nodup := ?_
    below := fun tag awaited' hget' => ?_
    linked := hlinked
    latency := ?_
    issued := fun e he => ?_
    room := ?_ }
  · exact hapart _ (List.mem_map_of_mem ht) _ List.mem_cons_self heq
  · exact (h.seen region addr hcovers : _)
  · have hne : r'.tag ≠ r.tag := fun heq => hfresh (List.mem_map.mpr ⟨r', hr', heq⟩)
    rw [hexpects _ hne]
    exact h.fulfils r' (List.mem_cons_of_mem _ hr')
  · exact List.nodup_append.mpr ⟨hwaiting, hdue, fun a ha b hb =>
      hapart a ha b (List.mem_cons_of_mem _ hb)⟩
  · simp only [AscMap.get?_erase] at hget'
    split at hget'
    · cases hget'
    · exact h.below tag awaited' hget'
  · have hsum := total_perm (hperm.map fun e => g.now - e.2.issuedAt)
    have hlatency := h.latency
    unfold Generator.waited at hlatency ⊢
    simp only [hsum, List.map_cons, total] at hlatency
    simp only [hstats]
    omega
  · exact h.issued e (hperm.mem_iff.mpr (List.mem_cons_of_mem _ he))
  · have hsize := AscMap.size_erase hget
    have hroom := h.room
    simp only
    omega

/-- **A completion that is due is found right**, unless the sum of all latencies
is no longer a word. -/
theorem receive {r : Response} (h : Assured w port now g waiting (r :: due) m) :
    (∃ g', (g.receive r).value = (.ok (), g') ∧ Assured w port now g' waiting due m ∧
      g'.pending = g.pending ∧ g'.blocked = g.blocked ∧ g'.scValue = g.learned r ∧
      g'.stats.scSuccesses = g.stats.scSuccesses + if r.increments then 1 else 0) ∨
    (g.receive r).value.1 = .error .overflow ∧ maxWord < min w.maxInflight now * now := by
  obtain ⟨e, hexpects, hr⟩ := h.fulfils r List.mem_cons_self
  obtain ⟨awaited, hget, rfl⟩ := Option.map_eq_some_iff.mp hexpects
  have hlinked := h.linked
  rw [List.countP_cons] at hlinked
  unfold Generator.receive Generator.count
  simp only [hget]
  cases hsum : addWord? g.stats.totalLatency (g.now - awaited.issuedAt) with
  | none =>
    -- all latencies are below the bound, so the bound is not a word
    refine Or.inr ⟨rfl, ?_⟩
    have hperm := AscMap.entries_erase_perm hget
    have hlatency := h.latency
    unfold Generator.waited at hlatency
    rw [total_perm (hperm.map fun e => g.now - e.2.issuedAt), List.map_cons, total] at hlatency
    have hclock := Nat.mul_le_mul (w.min_maxInflight_le h.clock) h.clock
    unfold addWord? at hsum
    split at hsum
    · cases hsum
    · simp only at hlatency
      omega
  | some totalLatency =>
    obtain ⟨rfl, -⟩ := addWord?_eq_some_iff.mp hsum
    refine Or.inl ?_
    unfold Generator.judge Generator.learned Response.increments
    cases hexpectation : awaited.expectation with
    | data bytes =>
      rw [hexpectation] at hr
      obtain ⟨hdata, hcmd⟩ := hr
      obtain ⟨hload, hstore⟩ := Command.apart_of_isLinked hcmd
      rw [hcmd] at hlinked
      simp only [hdata, hload, hstore, if_true, if_false, Bool.false_and]
      exact ⟨_, rfl, h.taken hget rfl hlinked, rfl, rfl, rfl, rfl⟩
    | acknowledgement =>
      rw [hexpectation] at hr
      have hcmd : r.cmd.isLinked = false := hr
      obtain ⟨hload, hstore⟩ := Command.apart_of_isLinked hcmd
      rw [hcmd] at hlinked
      simp only [hload, hstore, if_false, Bool.false_and]
      exact ⟨_, rfl, h.taken hget rfl hlinked, rfl, rfl, rfl, rfl⟩
    | counterValue =>
      rw [hexpectation] at hr
      obtain ⟨hcmd, hlength⟩ := hr
      have hle : Generator.counterBytes ≤ r.data.length := Nat.le_of_eq hlength.symm
      rw [if_pos (hcmd ▸ rfl)] at hlinked
      simp only [hcmd, hle, if_true]
      refine ⟨_, rfl, h.taken hget rfl ?_, rfl, rfl, rfl, rfl⟩
      rw [Option.toList_some, List.length_singleton]
      omega
    | incrementOutcome =>
      rw [hexpectation] at hr
      have hcmd : r.cmd = .storeCond := hr
      rw [if_pos (hcmd ▸ rfl)] at hlinked
      have hrest : waiting.countP (·.cmd.isLinked) + due.countP (·.cmd.isLinked) +
          g.scValue.toList.length ≤ 1 := by omega
      simp only [hcmd, beq_self_eq_true, Bool.true_and, reduceCtorEq, if_false]
      cases r.success with
      | true => exact ⟨_, rfl, h.taken hget rfl hrest, rfl, rfl, rfl, rfl⟩
      | false => exact ⟨_, rfl, h.taken hget rfl hrest, rfl, rfl, rfl, rfl⟩

/-- The value of the counter that comes back is kept for the store. -/
theorem holds_received {r : Response} {n : Nat} (h : Assured w port now g waiting (r :: due) m)
    (hn : g.Holds waiting (r :: due) n) (hvalue : g'.scValue = g.learned r) :
    g'.Holds waiting due n := by
  have hlinked := h.linked
  rw [List.countP_cons] at hlinked
  unfold Generator.learned at hvalue
  cases hn with
  | coming hr hcmd hdata =>
    rcases List.mem_cons.mp hr with rfl | hr
    · rw [if_pos hcmd, hdata] at hvalue
      exact .here hvalue (wordBytes_next n)
    · exact .coming hr hcmd hdata
  | here hv hnext =>
    -- the port has the value already, so this is no load of it
    have hother : r.cmd ≠ .loadLocked := fun heq => by
      rw [hv, if_pos (heq ▸ rfl), Option.toList_some, List.length_singleton] at hlinked
      omega
    rw [if_neg hother] at hvalue
    exact .here (hvalue.trans hv) hnext
  | going ht hcmd hdata => exact .going ht hcmd hdata

/-! ### An access is made -/

/-- A tag that is in use is below the next one. -/
theorem lt_nextTag (h : Assured w port now g waiting due m) {tag : Nat}
    (hused : (g.expects tag).isSome = true) : tag < g.nextTag := by
  obtain ⟨e, he⟩ := Option.isSome_iff_exists.mp hused
  obtain ⟨awaited, hget, -⟩ := Option.map_eq_some_iff.mp he
  exact h.below tag awaited hget

theorem tag_lt_of_waiting (h : Assured w port now g waiting due m) {t : Transaction}
    (ht : t ∈ waiting) :
    t.tag < g.nextTag := h.lt_nextTag (h.promised.isSome ht)

theorem tag_lt_of_due (h : Assured w port now g waiting due m) {r : Response} (hr : r ∈ due) :
    r.tag < g.nextTag := by
  obtain ⟨e, he, -⟩ := h.fulfils r hr
  exact h.lt_nextTag (he ▸ rfl)

/-- A new access waits behind the others. -/
theorem made {t : Transaction} {shadow : ByteMap} {scValue : Option Nat}
    (h : Assured w port now g waiting due m) (ht : w.Sited port t) (htag : t.tag = g.nextTag)
    (hroom : g.inflight.size < min w.maxInflight (g.now + 1))
    (hshadow : ∀ addr, w.layout.Covers port .privateRegion addr 1 →
      shadow.byteAt addr = (t.applied (replay m waiting)).byteAt addr)
    (hlinked : (waiting ++ [t]).countP (·.cmd.isLinked) + due.countP (·.cmd.isLinked) +
      scValue.toList.length ≤ 1) :
    Assured w port now { g with
        nextTag := g.nextTag + 1
        inflight := g.inflight.insert g.nextTag ⟨t.addr, t.promised (replay m waiting), g.now⟩
        shadow, scValue }
      (waiting ++ [t]) due m := by
  have hentries := AscMap.entries_insert_of_lt
    (⟨t.addr, t.promised (replay m waiting), g.now⟩ : Awaited) h.below
  -- the new tag is above all others, so no other expectation is touched
  have hexpects : ∀ tag, Generator.expects { g with
      nextTag := g.nextTag + 1
      inflight := g.inflight.insert g.nextTag ⟨t.addr, t.promised (replay m waiting), g.now⟩
      shadow, scValue } tag =
      if g.nextTag = tag then some (t.promised (replay m waiting)) else g.expects tag := by
    intro tag
    unfold Generator.expects
    rw [AscMap.get?_insert]
    split <;> rfl
  refine { h with
    sited := fun t' ht' => ?_
    promised := (h.promised.mono fun t' ht' => ?_).concat ?_
    seen := fun region addr hcovers => ?_
    fulfils := fun r hr => ?_
    nodup := ?_
    below := fun tag awaited hget => ?_
    linked := hlinked
    latency := ?_
    issued := fun e he => ?_
    room := ?_ }
  · rcases List.mem_append.mp ht' with ht' | ht'
    · exact h.sited t' ht'
    · rw [List.mem_singleton.mp ht']
      exact ht
  · rw [hexpects, if_neg (Nat.ne_of_gt (h.tag_lt_of_waiting ht'))]
  · rw [hexpects, htag, if_pos rfl]
  -- a store falls into the own region of a generator, never into the shared one
  · rw [replay_concat]
    cases region with
    | privateRegion => exact hshadow addr hcovers
    | sharedRegion =>
      exact (h.seen .sharedRegion addr hcovers).trans
        (ht.byteAt_applied (replay m waiting) hcovers).symm
  · obtain ⟨e, he, hr'⟩ := h.fulfils r hr
    refine ⟨e, ?_, hr'⟩
    rw [hexpects, if_neg (Nat.ne_of_gt (h.tag_lt_of_due hr))]
    exact he
  · have hperm : (t.tag :: (waiting.map (·.tag) ++ due.map (·.tag))).Perm
        ((waiting ++ [t]).map (·.tag) ++ due.map (·.tag)) := by
      rw [List.map_append, List.append_assoc]
      exact List.perm_middle.symm
    refine hperm.nodup_iff.mp (List.nodup_cons.mpr ⟨fun hmem => ?_, h.nodup⟩)
    rw [htag] at hmem
    rcases List.mem_append.mp hmem with hmem | hmem
    · obtain ⟨t', ht', heq⟩ := List.mem_map.mp hmem
      exact Nat.ne_of_lt (h.tag_lt_of_waiting ht') heq
    · obtain ⟨r, hr, heq⟩ := List.mem_map.mp hmem
      exact Nat.ne_of_lt (h.tag_lt_of_due hr) heq
  · simp only [AscMap.get?_insert] at hget
    split at hget
    · rename_i heq
      exact heq ▸ Nat.lt_succ_self _
    · exact Nat.lt_succ_of_lt (h.below tag awaited hget)
  · have hlatency := h.latency
    unfold Generator.waited at hlatency ⊢
    simp only [hentries, List.map_append, total_append, List.map_singleton, total, Nat.sub_self]
    exact hlatency
  · simp only [hentries] at he
    rcases List.mem_append.mp he with he | he
    · exact h.issued e he
    · cases List.mem_singleton.mp he
      exact Nat.le_refl _
  · rw [AscMap.size_insert_of_lt _ h.below]
    exact hroom

/-- An access that is awaited was made now. -/
theorem awaited {t : Transaction} {e : Expectation} {g₀ : Generator}
    (h : Assured w port now g waiting due m)
    (hg : g₀ = { g with shadow := g₀.shadow, scValue := g₀.scValue }) (ht : w.Sited port t)
    (htag : t.tag = g.nextTag) (he : e = t.promised (replay m waiting))
    (hroom : g.inflight.size < min w.maxInflight (g.now + 1))
    (hshadow : ∀ addr, w.layout.Covers port .privateRegion addr 1 →
      g₀.shadow.byteAt addr = (t.applied (replay m waiting)).byteAt addr)
    (hlinked : (waiting ++ [t]).countP (·.cmd.isLinked) + due.countP (·.cmd.isLinked) +
      g₀.scValue.toList.length ≤ 1) :
    Assured w port now (g₀.await t e).2 (waiting ++ [(g₀.await t e).1]) due m := by
  -- when it was made changes nothing of what an access does
  have hmade := h.made (t := { t with issuedAt := g.now })
    ⟨⟨ht.sound.pos, ht.sound.inside, ht.sound.line, ht.sound.sized⟩, ht.load,
      ht.store, ht.linked⟩
    htag hroom hshadow (by
      rw [List.countP_append, List.countP_singleton] at hlinked ⊢
      exact hlinked)
  rw [hg, he]
  unfold Generator.await
  simp only [htag] at hmade ⊢
  exact hmade

/-- Where nothing is in flight, nothing waits and nothing is due. -/
theorem eq_nil (h : Assured w port now g waiting due m) (hempty : g.inflight.isEmpty = true) :
    waiting = [] ∧ due = [] := by
  -- whatever waits or is due is expected, and nothing is
  have hnone : ∀ tag, g.expects tag = none := by
    intro tag
    unfold Generator.expects
    rw [AscMap.get?_of_isEmpty hempty]
    rfl
  constructor
  · rw [List.eq_nil_iff_forall_not_mem]
    intro t ht
    have hsome := h.promised.isSome ht
    rw [hnone] at hsome
    cases hsome
  · rw [List.eq_nil_iff_forall_not_mem]
    intro r hr
    obtain ⟨e, he, -⟩ := h.fulfils r hr
    rw [hnone] at he
    cases he

/-! ### The part of a cycle -/

/-- A generator went on without a completion, and what is known of it still
holds. -/
structure Goes (w : Scenario) (port now : Nat) (g g' : Generator)
    (waiting waiting' : List Transaction) (due : List Response) (m : ByteMap) : Prop where
  /-- What is known of it holds. -/
  lane : Assured w port now g' waiting' due m
  /-- If the port had the value of the counter, it still has it. -/
  holds : ∀ n, g.Holds waiting due n → g'.Holds waiting' due n
  /-- It learns of no increment. -/
  successes : g'.stats.scSuccesses = g.stats.scSuccesses

theorem Goes.trans {g₁ g₂ : Generator} {waiting₁ waiting₂ : List Transaction}
    (h : Goes w port now g g₁ waiting waiting₁ due m)
    (h' : Goes w port now g₁ g₂ waiting₁ waiting₂ due m) :
    Goes w port now g g₂ waiting waiting₂ due m :=
  ⟨h'.lane, fun n hn => h'.holds n (h.holds n hn), h'.successes.trans h.successes⟩

theorem holds_of_essence {n : Nat} (he : g'.essence = g.essence) (h : g.Holds waiting due n) :
    g'.Holds waiting due n := by
  have hvalue : g'.scValue = g.scValue := (congrArg Generator.scValue he :)
  cases h with
  | coming hr hcmd hdata => exact .coming hr hcmd hdata
  | here hv hnext => exact .here (hvalue.trans hv) hnext
  | going ht hcmd hdata => exact .going ht hcmd hdata

theorem goes_of_essence (h : Assured w port now g waiting due m) (he : g'.essence = g.essence)
    (hs : g'.stats.scSuccesses = g.stats.scSuccesses) :
    Goes w port now g g' waiting waiting due m :=
  ⟨h.of_essence he, fun _ => holds_of_essence he, hs⟩

/-- A cycle begins, in which no access has been made yet. -/
theorem begin {now' : Nat} (h : Assured w port now g waiting due m) (hle : now ≤ now')
    (hpaced : g.inflight.size ≤ now') :
    Goes w port now' g { g with now := now' } waiting waiting due m := by
  have hclock := Nat.le_trans h.clock hle
  have hroom := Nat.le_trans h.room (Nat.min_le_left _ _)
  refine ⟨{ h with
    latency := ?_
    issued := fun e he => Nat.le_trans (h.issued e he) hclock
    room := Nat.le_min.mpr ⟨hroom, Nat.le_succ_of_le hpaced⟩
    clock := Nat.le_refl _ }, fun _ hn => ?_, rfl⟩
  · -- every access in flight waits for as many cycles more
    have hmore : total (g.inflight.entries.map fun e => now' - e.2.issuedAt) ≤
        total (g.inflight.entries.map fun e => g.now - e.2.issuedAt) +
          g.inflight.entries.length * (now' - g.now) :=
      total_map_le fun e he => by
        have hissued := h.issued e he
        omega
    have hwait : g.inflight.entries.length * (now' - g.now) ≤
        min w.maxInflight now' * (now' - g.now) :=
      Nat.mul_le_mul_right _ (Nat.le_min.mpr ⟨hroom, hpaced⟩)
    have hbefore : min w.maxInflight g.now * g.now ≤ min w.maxInflight now' * g.now :=
      Nat.mul_le_mul_right _ (w.min_maxInflight_le hclock)
    have hsplit : min w.maxInflight now' * now' =
        min w.maxInflight now' * g.now + min w.maxInflight now' * (now' - g.now) := by
      rw [← Nat.mul_add, Nat.add_sub_cancel' hclock]
    have hlatency := h.latency
    unfold Generator.waited at hlatency ⊢
    simp only
    omega
  · cases hn with
    | coming hr hcmd hdata => exact .coming hr hcmd hdata
    | here hv hnext => exact .here hv hnext
    | going ht hcmd hdata => exact .going ht hcmd hdata

/-- The next access to the counter: only one is made at a time. -/
theorem increment (h : Assured w port now g waiting due m) (hempty : g.inflight.isEmpty = true) :
    Goes w port now g (g.makeIncrement w.counterAddr).2 waiting
      (waiting ++ [(g.makeIncrement w.counterAddr).1]) due m := by
  obtain ⟨rfl, rfl⟩ := h.eq_nil hempty
  have hroom : g.inflight.size < min w.maxInflight (g.now + 1) := by
    rw [AscMap.size_of_isEmpty hempty]
    exact Nat.lt_min.mpr ⟨w.maxInflight_pos, Nat.succ_pos _⟩
  unfold Generator.makeIncrement
  -- a value in hand goes on its way, and the reservation with it
  cases hvalue : g.scValue with
  | none =>
    refine ⟨h.awaited rfl (Scenario.sited_counter port rfl rfl rfl Bool.noConfusion) rfl rfl hroom
      (h.seen .privateRegion) ?_, fun n hn => ?_, rfl⟩
    · rw [hvalue]
      exact Nat.le_refl _
    cases hn with
    | coming hr _ _ => cases hr
    | here hv _ => rw [hvalue] at hv; cases hv
    | going ht _ _ => cases ht
  | some value =>
    refine ⟨h.awaited rfl (Scenario.sited_counter port rfl rfl rfl fun _ => rfl) rfl rfl hroom
      (h.seen .privateRegion) (Nat.le_refl _), fun n hn => ?_, rfl⟩
    cases hn with
    | coming hr _ _ => cases hr
    | here hv hnext =>
      rw [hvalue] at hv
      cases hv
      exact .going (List.mem_singleton_self _) rfl hnext
    | going ht _ _ => cases ht

theorem expected_eq (h : Assured w port now g waiting due m) {region : Region} {addr size : Nat}
    (hcovers : w.layout.Covers port region addr size) :
    g.expected region addr size = (replay m waiting).load addr size := by
  rw [Generator.expected_eq]
  unfold ByteMap.load span
  rw [List.map_map, List.map_map]
  refine List.map_congr_left fun i hi => h.seen region (addr + i) ?_
  have hlt := List.mem_range.mp hi
  obtain ⟨hstart, hstop⟩ := hcovers
  exact ⟨by omega, by omega⟩

/-- The next access of a pattern. -/
theorem access {p : Pattern} (h : Assured w port now g waiting due m) (hp : p ∈ w.set.patterns)
    (hport : port < w.numPorts) (hroom : g.inflight.size < min w.maxInflight (g.now + 1))
    (raw : Nat) :
    Goes w port now g (g.makeAccess p (w.layout.startOf port p.region + p.place raw)).2 waiting
      (waiting ++ [(g.makeAccess p (w.layout.startOf port p.region + p.place raw)).1]) due m := by
  have hfits := w.fits p hp
  obtain ⟨hcovers, hdvd⟩ := Scenario.covers_target hp port raw
  generalize w.layout.startOf port p.region + p.place raw = addr at hcovers hdvd
  have hlinked : ∀ {t : Transaction}, t.cmd.isLinked = false →
      (waiting ++ [t]).countP (·.cmd.isLinked) + due.countP (·.cmd.isLinked) +
        g.scValue.toList.length ≤ 1 := by
    intro t ht
    rw [List.countP_append, List.countP_singleton, ht]
    exact h.linked
  have hlength : (Generator.payload g.port g.nextTag p.reqBytes).length = p.reqBytes := by
    unfold Generator.payload
    rw [List.length_map, List.length_range]
  -- what a store leaves is remembered
  have hshadow : p.op.isStore = true → ∀ data a, w.layout.Covers port .privateRegion a 1 →
      (g.shadow.store addr data).byteAt a = ((replay m waiting).store addr data).byteAt a := by
    intro _ data a ha
    have hseen : g.shadow.byteAt a = (replay m waiting).byteAt a := h.seen .privateRegion a ha
    rw [ByteMap.byteAt_store, ByteMap.byteAt_store, hseen]
  have hsited : ∀ {t : Transaction}, t.addr = addr → t.size = p.reqBytes →
      (t.cmd.isExclusive = true → t.data.length = t.size) → t.cmd.isLinked = false →
      (t.cmd = .write ∨ t.cmd = .swap → p.op.isStore = true) → w.Sited port t :=
    fun haddr hsize hsized hcmd hstore =>
      Scenario.sited_of_covers hport hfits (haddr ▸ hcovers) (haddr ▸ hdvd) hsize
        hsized hcmd hstore
  unfold Generator.makeAccess
  cases hop : p.op with
  | read =>
    have hread : ¬ (Command.read = .write ∨ Command.read = .swap) := by decide
    simp only [h.expected_eq hcovers]
    exact ⟨h.awaited rfl (hsited rfl rfl Bool.noConfusion rfl fun heq => absurd heq hread)
      rfl rfl hroom (h.seen .privateRegion) (hlinked rfl), fun n => .concat rfl, rfl⟩
  | write =>
    have hstore : p.op.isStore = true := by rw [hop]; rfl
    exact ⟨h.awaited rfl (hsited rfl hlength (fun _ => rfl) rfl fun _ => hstore) rfl rfl hroom
      (hshadow hstore _) (hlinked rfl), fun n => .concat rfl, rfl⟩
  | swap =>
    have hstore : p.op.isStore = true := by rw [hop]; rfl
    have hprivate := hcovers
    rw [hfits.own hstore, ← hlength] at hprivate
    have hexpected := h.expected_eq hprivate
    rw [hlength] at hexpected
    simp only [hexpected]
    refine ⟨h.awaited rfl (hsited rfl hlength (fun _ => rfl) rfl fun _ => hstore) rfl ?_ hroom
      (hshadow hstore _) (hlinked rfl), fun n => .concat rfl, rfl⟩
    exact congrArg (fun size => Expectation.data ((replay m waiting).load addr size)) hlength.symm

/-- What a generator's part of a cycle comes to, where some accesses of the port
are queued. -/
inductive Ticked (w : Scenario) (port now : Nat) (g : Generator) (queued : List Transaction)
    (due : List Response) (m : ByteMap) (a : Allocator) : Generator → Allocator → Prop
  /-- No access is submitted. -/
  | quiet {g' : Generator}
      (h : Goes w port now g g' (queued ++ g.pending.toList) (queued ++ g.pending.toList) due m)
      (hpending : g'.pending = g.pending) (hblocked : g'.blocked = g.blocked) :
      Ticked w port now g queued due m a g' a
  /-- An access is submitted; if it is refused, it is kept. -/
  | submitted {g' : Generator} {t : Transaction} {l : Logged (Bool × Allocator)}
      (hsubmit : a.submit now port t = .ok l)
      (h : Goes w port now g g' (queued ++ g.pending.toList) (queued ++ [t]) due m)
      (hopen : g.blocked = false) (hpending : g'.pending = if l.value.1 then none else some t)
      (hblocked : g'.blocked = !l.value.1) : Ticked w port now g queued due m a g' l.value.2

/-- A submission on a port that exists goes through. -/
theorem submit {g₀ : Generator} {t : Transaction} {queued : List Transaction} {a : Allocator}
    (h : Goes w port now g₀ g (queued ++ g₀.pending.toList) (queued ++ [t]) due m)
    (hnow : g.now = now)
    (hport : port < a.ports.length) (hopen₀ : g₀.blocked = false) (hopen : g.blocked = false) :
    ∃ l, g.submit? (some t) a = .ok l ∧
      Ticked w port now g₀ queued due m a l.value.2.1 l.value.2.2 := by
  -- the port exists, so the submission gives an answer
  obtain ⟨s, hsubmit⟩ : ∃ s, a.submit now port t = .ok s := by
    unfold Allocator.submit
    rw [List.getElem?_eq_getElem hport]
    exact ⟨_, rfl⟩
  have hsubmit' : a.submit g.now g.port t = .ok s := by
    rw [hnow, h.lane.port_eq]
    exact hsubmit
  unfold Generator.submit? Generator.submit
  simp only [hsubmit', Except.map]
  refine ⟨_, rfl, ?_⟩
  simp only [Logged.map, Logged.value_andThen]
  cases htaken : s.value.1 with
  | true =>
    rw [if_pos rfl]
    refine .submitted hsubmit (h.trans (goes_of_essence h.lane rfl rfl)) hopen₀ ?_ ?_
    · rw [htaken]
      rfl
    · rw [htaken]
      exact hopen
  | false =>
    rw [if_neg Bool.false_ne_true]
    refine .submitted hsubmit (h.trans (goes_of_essence h.lane rfl rfl)) hopen₀ ?_ ?_
    · rw [htaken]
      rfl
    · rw [htaken]
      rfl

/-- The next access to the counter, if nothing is in flight. -/
theorem next_increment (h : Assured w port now g waiting due m) :
    g.nextIncrement = .ok none ∨ ∃ t g', g.nextIncrement = .ok (some (t, g')) ∧
      Goes w port now g g' waiting (waiting ++ [t]) due m ∧ g'.now = g.now ∧
      g'.blocked = g.blocked := by
  unfold Generator.nextIncrement
  cases hempty : g.inflight.isEmpty with
  | false => exact Or.inl rfl
  | true =>
    have hstop : g.layout.checkedStop g.numPorts 0 = .ok w.counterAddr := by
      have hle : w.layout.stop w.numPorts 0 ≤ maxWord := w.counterAddr_le
      rw [h.layout_eq, h.numPorts_eq]
      exact if_pos hle
    refine Or.inr ⟨_, _, by rw [hstop]; rfl, h.increment hempty, ?_, ?_⟩
    · unfold Generator.makeIncrement
      split <;> rfl
    · unfold Generator.makeIncrement
      split <;> rfl

/-- The next access of a pattern, if there is room for one more in flight. -/
theorem next_access {p : Pattern} (h : Assured w port now g waiting due m)
    (hp : w.set.patterns[g.pattern]? = some p) (hport : port < w.numPorts)
    (hreq : g.reqIndex < w.set.reqsPerPattern) (hpaced : g.inflight.size ≤ g.now) :
    g.nextAccess w.set p = .ok none ∨ ∃ t g', g.nextAccess w.set p = .ok (some (t, g')) ∧
      Goes w port now g g' waiting (waiting ++ [t]) due m ∧ g'.now = g.now ∧
      g'.blocked = g.blocked := by
  have hmem := List.mem_of_getElem? hp
  unfold Generator.nextAccess
  split
  · exact Or.inl rfl
  · rename_i hroom
    rw [h.maxInflight_eq, Nat.not_le] at hroom
    -- the scenario places every access, and in a region of the generator
    obtain ⟨raw, hraw⟩ := Option.isSome_iff_exists.mp (w.placed p hmem _ hreq _ hport)
    have hoffset : w.set.offset g.pattern g.reqIndex g.port = .ok (some (p.place raw)) := by
      unfold PatternSet.offset Pattern.offset
      rw [hp, h.port_eq]
      simp only [hraw, Except.map]
    have htarget : g.target p.region (p.place raw) = w.layout.startOf port p.region +
        p.place raw := by
      rw [Generator.target_eq, h.layout_eq, h.port_eq]
    have hword := Scenario.lastComputed_le hmem hport raw
    have hmade := h.access hmem hport
      (Nat.lt_min.mpr ⟨hroom, Nat.lt_succ_of_le hpaced⟩) raw
    generalize w.layout.startOf port p.region + p.place raw = addr at htarget hword hmade
    refine Or.inr
      ⟨_, { (g.makeAccess p addr).2 with reqIndex := (g.makeAccess p addr).2.reqIndex + 1 },
      ?_, hmade.trans (goes_of_essence hmade.lane rfl rfl), ?_, ?_⟩
    · simp only [hoffset]
      unfold Generator.makeAt
      simp only [htarget]
      rw [if_neg (Nat.not_lt.mpr hword)]
      rfl
    · unfold Generator.makeAccess
      cases p.op <;> rfl
    · unfold Generator.makeAccess
      cases p.op <;> rfl

/-- The next access of a pattern, if one is made. -/
theorem next {p : Pattern} (h : Assured w port now g waiting due m)
    (hp : w.set.patterns[g.pattern]? = some p) (hport : port < w.numPorts)
    (hreq : g.reqIndex < w.set.reqsPerPattern) (hpaced : g.inflight.size ≤ g.now) :
    (if p.isAtomic then g.nextIncrement else g.nextAccess w.set p) = .ok none ∨
      ∃ t g', (if p.isAtomic then g.nextIncrement else g.nextAccess w.set p) =
        .ok (some (t, g')) ∧
        Goes w port now g g' waiting (waiting ++ [t]) due m ∧ g'.now = g.now ∧
        g'.blocked = g.blocked := by
  cases p.isAtomic with
  | true => exact h.next_increment
  | false => exact h.next_access hp hport hreq hpaced

/-- What is worked on after a cycle has begun. -/
theorem work {p : Pattern} {queued : List Transaction} {a : Allocator} {g₀ : Generator}
    (h : Goes w port now g₀ g (queued ++ g₀.pending.toList)
      (queued ++ g₀.pending.toList) due m)
    (hpending : g.pending = g₀.pending) (hblocked : g.blocked = g₀.blocked) (hnow : g.now = now)
    (hp : w.set.patterns[g.pattern]? = some p) (hport : port < w.numPorts)
    (hfront : port < a.ports.length) (hopen : g.blocked = false)
    (hpaced : g.inflight.size ≤ g.now) :
    ∃ l, g.work w.set p a = .ok l ∧
    Ticked w port now g₀ queued due m a l.value.2.1 l.value.2.2 := by
  have hopen₀ : g₀.blocked = false := hblocked.symm.trans hopen
  -- whatever changes nothing of the essence is quiet
  have hquiet : ∀ {g' : Generator}, g'.essence = g.essence →
      g'.stats.scSuccesses = g.stats.scSuccesses → g'.pending = g.pending →
      g'.blocked = g.blocked →
      Ticked w port now g₀ queued due m a g' a := fun he hs hpending' hblocked' =>
    .quiet (h.trans (goes_of_essence h.lane he hs)) (hpending'.trans hpending)
      (hblocked'.trans hblocked)
  unfold Generator.work
  split
  · -- the access that was refused is repeated
    rename_i hsome
    obtain ⟨t, hpend⟩ := Option.isSome_iff_exists.mp hsome
    rw [hpend]
    refine submit ?_ hnow hfront hopen₀ hopen
    have hwaiting : queued ++ g₀.pending.toList = queued ++ [t] := by
      rw [← hpending, hpend]; rfl
    rw [hwaiting] at h ⊢
    exact h
  · rename_i hpend
    have hnone : g₀.pending = none := hpending.symm.trans (Option.not_isSome_iff_eq_none.mp hpend)
    have hwaiting : queued ++ g₀.pending.toList = queued := by
      rw [hnone]
      exact List.append_nil _
    split
    · split
      · exact ⟨.quiet (_, _, _), rfl, hquiet rfl rfl rfl rfl⟩
      · exact ⟨.quiet (_, _, _), rfl, hquiet rfl rfl rfl rfl⟩
    · -- a new access is submitted behind those that are queued
      rename_i hreq
      rw [hwaiting] at h
      rcases h.lane.next hp hport (Nat.not_le.mp hreq) hpaced with
        hnext | ⟨t, g', hnext, hgoes, hnow', hblocked'⟩
      · rw [hnext]
        exact ⟨.quiet (_, _, _), rfl, hquiet rfl rfl rfl rfl⟩
      · rw [hnext]
        refine submit ?_ (hnow'.trans hnow) hfront hopen₀ (hblocked'.trans hopen)
        rw [hwaiting]
        exact h.trans hgoes

/-- **In its part of a cycle a generator breaks no contract**, and the access
that it makes will bring what it expects. -/
theorem tick {now₀ : Nat} {queued : List Transaction} {a : Allocator}
    (h : Assured w port now₀ g (queued ++ g.pending.toList) due m) (hle : now₀ ≤ now)
    (hpaced : g.inflight.size ≤ now) (hport : port < w.numPorts)
    (hfront : port < a.ports.length) :
    ∃ l, g.tick now w.set a = .ok l ∧
    Ticked w port now g queued due m a l.value.2.1 l.value.2.2 := by
  have hbegun := h.begin hle hpaced
  unfold Generator.tick
  simp only
  split
  · exact ⟨.quiet (_, _, _), rfl, .quiet hbegun rfl rfl⟩
  · rename_i hopen
    split
    · exact ⟨.quiet (_, _, _), rfl,
        .quiet (hbegun.trans (goes_of_essence hbegun.lane rfl rfl)) rfl rfl⟩
    · rename_i p hp
      refine work hbegun rfl rfl rfl hp hport hfront ?_ hpaced
      cases hb : g.blocked with
      | false => rfl
      | true => simp [hb] at hopen

end Assured

end MemPort
