import MemPort.Bench.Lanes
import MemPort.Proofs.InOrder
import MemPort.Proofs.Ledger

/-!
# One transaction after the other

Loads share accesses, and many requests are in flight at a time.  None of this
can be told from the completions: they are those of a memory that performs the
transactions one after the other, each on its own, in the order in which they
left their queues.

The invariant ties every request in flight to its answer, which the memory made
when it accepted the request.  The answer completes the transactions behind the
request as if each had been performed on its own, and as long as no store of the
line went out after a load, the answer of the load is what the line still holds.
A load may join another only in that case, so it gets the bytes that it would
have got from an access of its own.

## Main definitions

* `completedUnder` — the completions under a number.
* `Coalesced.Performs` — one access for all transactions behind a request.
* `Stands`, `Account` — what is known of one request in flight, and of a whole
  system.

## Main results

* `Coalesced.exists_performs` — one access stands for all transactions behind
  a request.
* `Account.step` — every step of the ledger keeps the account.
* `serializable` — the completions are those of transactions performed one
  after the other.

## References

`SPEC_FULL.md`, section 8, coalescing idempotence and correctness of time
coalescing.
-/

namespace MemPort

/-! ### Completions by number -/

/-- The completions under a number, in order. -/
def completedUnder (id : Nat) (cs : List (Nat × Nat × Response)) : List (Nat × Response) :=
  cs.filterMap fun c => if c.1 = id then some c.2 else none

theorem completedUnder_append (id : Nat) (cs ds : List (Nat × Nat × Response)) :
    completedUnder id (cs ++ ds) = completedUnder id cs ++ completedUnder id ds :=
  List.filterMap_append

namespace DelayedMemory

variable {d d' : DelayedMemory} {cs : List (Nat × Nat × Response)}

/-- Nothing is completed under a number that no transaction has. -/
theorem completedUnder_eq_nil {xs : List (Nat × Origin)} (h : d.serially xs = .ok (cs, d'))
    {id : Nat} (hne : ∀ x ∈ xs, x.1 ≠ id) : completedUnder id cs = [] := by
  unfold completedUnder
  rw [List.filterMap_eq_nil_iff]
  intro c hc
  have hmem : c.1 ∈ xs.map (·.1) := by
    rw [← ids_serially h]
    exact List.mem_map_of_mem hc
  obtain ⟨x, hx, heq⟩ := List.mem_map.mp hmem
  exact if_neg (heq ▸ hne x hx)

/-- Transactions of one number are all completed under it. -/
theorem completedUnder_of_pair {os : List Origin} {id : Nat}
    (h : d.serially (os.map fun o => (id, o)) = .ok (cs, d')) :
    completedUnder id cs = cs.map (·.2) := by
  have hids : ∀ c ∈ cs, c.1 = id := by
    intro c hc
    have hmem : c.1 ∈ (os.map fun o => (id, o)).map (·.1) := by
      rw [← ids_serially h]
      exact List.mem_map_of_mem hc
    rw [List.map_map] at hmem
    obtain ⟨o, -, heq⟩ := List.mem_map.mp hmem
    exact heq.symm
  unfold completedUnder
  rw [← List.filterMap_eq_map]
  exact List.filterMap_congr fun c hc => if_pos (hids c hc)

theorem completedUnder_of_pair_ne {os : List Origin} {id k : Nat}
    (h : d.serially (os.map fun o => (id, o)) = .ok (cs, d')) (hne : id ≠ k) :
    completedUnder k cs = [] := by
  refine completedUnder_eq_nil h fun x hx => ?_
  obtain ⟨o, -, rfl⟩ := List.mem_map.mp hx
  exact hne

end DelayedMemory

/-! ### One access for many transactions -/

/-- One access for all transactions behind a request comes to what they come to
one after the other. -/
structure Coalesced.Performs (c : Coalesced) (id lineSize : Nat) (d : DelayedMemory)
    (answer : BackendResponse) (ds : List (Nat × Nat × Response))
    (d' : DelayedMemory) : Prop where
  /-- The access is performed. -/
  perform : d.perform (c.toBackend id lineSize) = .ok (answer, d')
  /-- The transactions are performed. -/
  serial : d.serially (c.origins.map fun o => (id, o)) = .ok (ds, d')
  /-- The answer completes the transactions. -/
  completes : c.fanOut answer = .ok (ds.map (·.2))
  /-- The answer of a load is what its line holds. -/
  fresh : c.cmd = .read → answer.data = d'.memory.contents.load c.line lineSize
  /-- Only a store changes a line, and no other than its own. -/
  others : ∀ addr, (c.cmd.isExclusive = true → c.line ≠ blockBase addr lineSize) →
    d'.memory.contents.load (blockBase addr lineSize) lineSize =
      d.memory.contents.load (blockBase addr lineSize) lineSize

namespace Coalesced

variable {c : Coalesced} {lineSize limit : Nat} {d : DelayedMemory}

/-- A load of a line stands for all loads behind it. -/
theorem performs_of_read (id : Nat) (hsize : isPowerOfTwo lineSize = true)
    (hdvd : lineSize ∣ limit)
    (hlimit : limit ≤ d.memory.size) (hread : c.cmd = .read) (huniform : c.Uniform lineSize)
    (hsound : ∀ o ∈ c.origins, o.txn.Sound lineSize limit) :
    ∃ answer ds, c.Performs id lineSize d answer ds d := by
  have hfirst : c.first ∈ c.origins := List.mem_cons_self
  have hline : blockBase c.first.txn.addr lineSize = c.line := (huniform _ hfirst).1
  -- an access of the line is inside, and the end falls between two lines
  have hinside : c.line + lineSize ≤ d.memory.size :=
    Nat.le_trans (hline ▸ (hsound _ hfirst).line_le hsize hdvd) hlimit
  have hpos : 0 < lineSize := by
    have hlt := lt_blockBase_add hsize c.first.txn.addr
    have hle := blockBase_le c.first.txn.addr lineSize
    omega
  refine ⟨⟨id, d.memory.contents.load c.line lineSize, true⟩,
    c.origins.map fun o => (id, o.loaded d.memory.contents.byteAt), ?_,
    DelayedMemory.serially_reads id (fun o ho => (huniform o ho).2.trans hread)
      fun o ho => (hsound o ho).mono hlimit, ?_,
    fun _ => rfl, fun _ _ => rfl⟩
  · rw [toBackend_of_read hread]
    exact DelayedMemory.perform_read rfl hpos hinside
  · rw [List.map_map]
    exact fanOut_of_sound hsize hread huniform rfl hsound

/-- An access that is not a load is the access of its only transaction. -/
theorem performs_of_ne_read (id : Nat) (hsize : isPowerOfTwo lineSize = true)
    (hne : c.cmd ≠ .read) (halone : c.folded = []) (huniform : c.Uniform lineSize)
    (hsound : c.first.txn.Sound lineSize d.memory.size) :
    ∃ answer ds d', c.Performs id lineSize d answer ds d' := by
  have horigins : c.origins = [c.first] := congrArg (c.first :: ·) halone
  have hline : blockBase c.first.txn.addr lineSize = c.line :=
    (huniform _ List.mem_cons_self).1
  obtain ⟨answer, d', hperform⟩ :
      ∃ answer d', d.perform (c.first.alone id) = .ok (answer, d') :=
    DelayedMemory.exists_perform hsound.pos hsound.inside hsound.sized
  refine ⟨answer, [(id, c.first.port, c.first.txn.completion answer.data answer.success)], d', ?_,
    ?_, ?_, fun hread => absurd hread hne, fun addr haddr => ?_⟩
  · rw [toBackend_of_ne_read hne]
    exact hperform
  · rw [horigins]
    exact DelayedMemory.serially_cons hperform rfl
  · unfold fanOut
    rw [if_neg (mt (Command.isCoalescable_iff _).mp hne), horigins]
    rfl
  -- another line keeps its bytes, whether the store took effect or not
  · obtain ⟨-, -, -, hsame | ⟨hstore, hchanged⟩⟩ := DelayedMemory.of_perform hperform
    · rw [hsame]
    · rw [hchanged]
      refine ByteMap.load_store_of_lines _ hsize hsound hstore fun heq => ?_
      exact haddr hstore (hline.symm.trans heq.symm)

/-- **One access stands for all transactions behind a request**, where these
keep to the lines up to some limit. -/
theorem exists_performs (id : Nat) (hsize : isPowerOfTwo lineSize = true)
    (hdvd : lineSize ∣ limit) (hlimit : limit ≤ d.memory.size) (huniform : c.Uniform lineSize)
    (halone : c.cmd ≠ .read → c.folded = [])
    (hsound : ∀ o ∈ c.origins, o.txn.Sound lineSize limit) :
    ∃ answer ds d', c.Performs id lineSize d answer ds d' := by
  by_cases hread : c.cmd = .read
  · obtain ⟨answer, ds, h⟩ := performs_of_read id hsize hdvd hlimit hread huniform hsound
    exact ⟨answer, ds, d, h⟩
  · exact performs_of_ne_read id hsize hread (halone hread) huniform
      ((hsound _ List.mem_cons_self).mono hlimit)

end Coalesced

/-! ### Requests in flight -/

/-- What is known of a request in flight and its answer, where some transactions
have been completed one after the other. -/
structure Stands (entries : List (Nat × Coalesced)) (contents : ByteMap) (lineSize : Nat)
    (cs : List (Nat × Nat × Response)) (e : Nat × Coalesced)
    (answer : BackendResponse) : Prop where
  /-- The answer has the number of the request. -/
  id : answer.id = e.1
  /-- The answer completes the transactions behind the request. -/
  completes : e.2.fanOut answer = .ok (completedUnder e.1 cs)
  /-- The answer of a load that no store of the line is behind is what the line
  holds. -/
  fresh : e.2.cmd = .read → (∀ f ∈ entries, e.1 < f.1 → ¬ f.2.Blocks e.2) →
    answer.data = contents.load e.2.line lineSize

/-- A request in flight keeps to its answer if nothing is completed under its
number, and if a store that changes its line is still in flight. -/
theorem Stands.mono {entries entries' : List (Nat × Coalesced)} {contents contents' : ByteMap}
    {lineSize : Nat} {cs ds : List (Nat × Nat × Response)} {e : Nat × Coalesced}
    {answer : BackendResponse} (h : Stands entries contents lineSize cs e answer)
    (hds : completedUnder e.1 ds = [])
    (hfresh : e.2.cmd = .read → (∀ f ∈ entries', e.1 < f.1 → ¬ f.2.Blocks e.2) →
      (∀ f ∈ entries, e.1 < f.1 → ¬ f.2.Blocks e.2) ∧
        contents'.load e.2.line lineSize = contents.load e.2.line lineSize) :
    Stands entries' contents' lineSize (cs ++ ds) e answer := by
  refine ⟨h.id, ?_, fun hread hlast => ?_⟩
  · rw [completedUnder_append, hds, List.append_nil]
    exact h.completes
  · obtain ⟨hlast', hload⟩ := hfresh hread hlast
    rw [hload]
    exact h.fresh hread hlast'

/-- A load that no store of the line is behind completes another of the line
with the bytes that the line holds. -/
theorem Stands.joined {entries entries' : List (Nat × Coalesced)} {contents : ByteMap}
    {id lineSize memorySize : Nat} {cs ds : List (Nat × Nat × Response)}
    {target request merged : Coalesced} {answer : BackendResponse}
    (h : Stands entries contents lineSize cs (id, target) answer)
    (hlast : ∀ f ∈ entries, f.2.Blocks request → f.1 < id)
    (hmerged : target.absorb? request = some merged) (hsize : isPowerOfTwo lineSize = true)
    (huniform : request.Uniform lineSize)
    (hsound : ∀ o ∈ request.origins, o.txn.Sound lineSize memorySize)
    (hds : completedUnder id ds = request.origins.map (·.loaded contents.byteAt)) :
    Stands entries' contents lineSize (cs ++ ds) (id, merged) answer := by
  obtain ⟨-, -, hline⟩ := Coalesced.origins_absorb? hmerged
  obtain ⟨hread, hread', hline'⟩ := Coalesced.loads_of_absorb? hmerged
  have hfree : ∀ f ∈ entries, id < f.1 → ¬ f.2.Blocks target := by
    intro f hf hlt hblocks
    have hbefore := hlast f hf ⟨hblocks.1.trans hline'.symm, hblocks.2⟩
    exact Nat.lt_asymm hlt hbefore
  -- the load that is joined and the one that joins are for the same line
  have hdata : answer.data = contents.load target.line lineSize := h.fresh hread hfree
  refine ⟨h.id, ?_, fun _ _ => ?_⟩
  · rw [completedUnder_append, hds]
    refine Coalesced.fanOut_absorb? hmerged h.completes ?_
    refine Coalesced.fanOut_of_sound hsize hread' huniform ?_ hsound
    rw [hline']
    exact hdata
  · rw [show (id, merged).2.line = target.line from hline]
    exact hdata

theorem forall₂_imp_of_mem {α β : Type} {R S : α → β → Prop} {as : List α} {bs : List β}
    (h : List.Forall₂ R as bs) (himp : ∀ a ∈ as, ∀ b, R a b → S a b) :
    List.Forall₂ S as bs := by
  induction h with
  | nil => exact .nil
  | cons hab _ ih =>
    exact .cons (himp _ List.mem_cons_self _ hab)
      (ih fun a ha => himp a (List.mem_cons_of_mem _ ha))

namespace Stands

variable {entries : List (Nat × Coalesced)} {answers : List BackendResponse} {contents : ByteMap}
  {lineSize : Nat} {cs ds : List (Nat × Nat × Response)}

/-- A request that goes out joins those in flight at the end, and its answer
those on their way. -/
theorem all_sent {id : Nat} {request : Coalesced} {answer : BackendResponse} {d d' : DelayedMemory}
    (h : List.Forall₂ (Stands entries d.memory.contents lineSize cs) entries answers)
    (hbefore : ∀ e ∈ entries, e.1 < id ∧ e.2.Uniform lineSize)
    (hfree : completedUnder id cs = [])
    (hperforms : request.Performs id lineSize d answer ds d') :
    List.Forall₂ (Stands (entries ++ [(id, request)]) d'.memory.contents lineSize (cs ++ ds))
      (entries ++ [(id, request)]) (answers ++ [answer]) := by
  refine List.rel_append ?_ (.cons ?_ .nil)
  · -- behind a load that was in flight, there is now a store of its line, or the line is the same
    refine forall₂_imp_of_mem h fun e hmem answer' hstands => ?_
    obtain ⟨hlt, huniform⟩ := hbefore e hmem
    have hline := (huniform _ List.mem_cons_self).1
    have hother := DelayedMemory.completedUnder_of_pair_ne hperforms.serial (Nat.ne_of_gt hlt)
    refine hstands.mono hother fun _ hlast => ?_
    refine ⟨fun f hf => hlast f (List.mem_append_left _ hf), ?_⟩
    rw [← hline]
    refine hperforms.others _ fun hstore heq => ?_
    exact hlast (id, request) (List.mem_append_right _ (List.mem_singleton_self _)) hlt
      ⟨heq.trans hline, hstore⟩
  · -- nothing was served under the new number before
    refine ⟨?_, ?_, fun hread _ => hperforms.fresh hread⟩
    · rw [(DelayedMemory.of_perform hperforms.perform).1, Coalesced.id_toBackend]
    · rw [completedUnder_append, hfree, List.nil_append,
        DelayedMemory.completedUnder_of_pair hperforms.serial]
      exact hperforms.completes

/-- A load that joins one in flight gets the bytes that the line still holds,
and the others keep to their answers. -/
theorem all_folded {id memorySize : Nat} {target request merged : Coalesced} {d : DelayedMemory}
    (h : List.Forall₂ (Stands entries d.memory.contents lineSize cs) entries answers)
    (hwhich : ∀ e ∈ entries, e.1 = id → e = (id, target))
    (hlast : ∀ f ∈ entries, f.2.Blocks request → f.1 < id)
    (hmerged : target.absorb? request = some merged) (hsize : isPowerOfTwo lineSize = true)
    (huniform : request.Uniform lineSize)
    (hsound : ∀ o ∈ request.origins, o.txn.Sound lineSize memorySize)
    (hserial : d.serially (request.origins.map fun o => (id, o)) =
      .ok (request.origins.map fun o => (id, o.loaded d.memory.contents.byteAt), d)) :
    List.Forall₂ (fun e => Stands (entries.map fun e => if e.1 = id then (id, merged) else e)
        d.memory.contents lineSize
        (cs ++ request.origins.map fun o => (id, o.loaded d.memory.contents.byteAt))
        (if e.1 = id then (id, merged) else e)) entries answers := by
  obtain ⟨hread, -, -⟩ := Coalesced.loads_of_absorb? hmerged
  refine forall₂_imp_of_mem h fun e hmem answer hstands => ?_
  by_cases hid : e.1 = id
  · obtain rfl := hwhich e hmem hid
    rw [if_pos rfl]
    refine hstands.joined hlast hmerged hsize huniform hsound ?_
    rw [DelayedMemory.completedUnder_of_pair hserial, List.map_map]
    rfl
  · rw [if_neg hid]
    refine hstands.mono (DelayedMemory.completedUnder_of_pair_ne hserial (Ne.symm hid)) ?_
    refine fun _ hlater => ⟨fun f hf hlt hblocks => ?_, rfl⟩
    -- the load that is joined blocks nothing, and the others are as they were
    by_cases hfid : f.1 = id
    · obtain rfl := hwhich f hf hfid
      have hstore : target.cmd.isExclusive = true := hblocks.2
      rw [hread] at hstore
      cases hstore
    · exact hlater f (List.mem_map.mpr ⟨f, hf, if_neg hfid⟩) hlt hblocks

/-- The oldest answer belongs to the oldest request in flight, and the others
keep to theirs. -/
theorem all_answered {response : BackendResponse}
    (h : List.Forall₂ (Stands entries contents lineSize cs) entries (response :: answers))
    (hasc : entries.Pairwise fun a b => a.1 < b.1) :
    ∃ request rest, entries = (response.id, request) :: rest ∧
      request.fanOut response = .ok (completedUnder response.id cs) ∧
      List.Forall₂ (Stands rest contents lineSize cs) rest answers := by
  rw [List.forall₂_cons_right_iff] at h
  obtain ⟨⟨id, request⟩, rest, hhead, hrest, rfl⟩ := h
  obtain ⟨hlater, -⟩ := List.pairwise_cons.mp hasc
  obtain rfl : response.id = id := hhead.id
  refine ⟨request, rest, rfl, hhead.completes, ?_⟩
  -- the request that leaves is older than all others, so it was no store behind one
  -- of them
  rw [← List.append_nil cs]
  refine forall₂_imp_of_mem hrest fun e hmem answer hstands => hstands.mono rfl ?_
  refine fun _ hlast => ⟨fun f hf hlt => ?_, rfl⟩
  rcases List.mem_cons.mp hf with rfl | hf
  · exact absurd (hlater e hmem) (Nat.lt_asymm hlt)
  · exact hlast f hf hlt

end Stands

/-- What is known of a system after some events: `d` is the memory that
performed the transactions that left their queues one after the other, and `cs`
are their completions. -/
structure Account (d₀ : DelayedMemory) (es : List Event) (l : Ledger)
    (cs : List (Nat × Nat × Response)) (d : DelayedMemory) : Prop where
  /-- The transactions are performed one after the other. -/
  serial : d₀.serially (servedIn es) = .ok (cs, d)
  /-- That leads to the memory that there is. -/
  agrees : d.Agrees l.memory
  /-- It has as many bytes as at the start. -/
  size : d.memory.size = d₀.memory.size
  /-- The requests in flight are those that went out and were not answered. -/
  numbered : List.range (drainedIn es).length ++ l.books.outstanding.entries.map (·.1) =
    List.range l.books.nextId
  /-- Every request in flight has its answer on its way, in the same order. -/
  stands : List.Forall₂
    (Stands l.books.outstanding.entries d.memory.contents l.books.config.lineSize cs)
    l.books.outstanding.entries l.pending
  /-- Handed out are the completions under the numbers that were answered. -/
  delivered : l.deliveries =
    (List.range (drainedIn es).length).flatMap (completedUnder · cs)

namespace Account

variable {d₀ d d' : DelayedMemory} {es : List Event} {l l' : Ledger} {e : Event}
  {cs ds : List (Nat × Nat × Response)}

/-- Before a run, nothing is in flight and nothing on its way. -/
theorem start {m : Books} (hd : d.isIdle = true) (hm : m.outstanding = ∅) (hnext : m.nextId = 0) :
    Account d [] ⟨m, d.heldBack, d, []⟩ [] d := by
  refine ⟨rfl, .refl d, rfl, ?_, ?_, rfl⟩
  · simp only [hm, hnext]
    rfl
  · simp only [hm, DelayedMemory.heldBack_of_isIdle hd]
    exact .nil

theorem consecutive (h : Account d₀ es l cs d) : l.books.Consecutive (drainedIn es).length :=
  h.numbered

/-- Answers are drained by number, so the youngest requests stay in flight. -/
theorem consecutive_after (h : Account d₀ es l cs d) (hbooked : Booked l.books e l'.books)
    (hdrained : ∀ response ∈ e.drained,
      response.id = (drainedIn es).length ∧ (drainedIn es).length < l.books.nextId) :
    l'.books.Consecutive (drainedIn (es ++ [e])).length := by
  rw [drainedIn_append, List.length_append]
  exact hbooked.consecutive h.consecutive hdrained

/-- While nothing is drained, completions under numbers that were not answered
change nothing of what was handed out. -/
theorem delivered_append (h : Account d₀ es l cs d) (hdrained : e.drained = [])
    (hdeliveries : l'.deliveries = l.deliveries)
    (hds : ∀ id < (drainedIn es).length, completedUnder id ds = []) :
    l'.deliveries =
      (List.range (drainedIn (es ++ [e])).length).flatMap (completedUnder · (cs ++ ds)) := by
  rw [drainedIn_append, hdrained, List.append_nil, hdeliveries, h.delivered]
  refine List.flatMap_congr fun id hid => ?_
  rw [completedUnder_append, hds id (List.mem_range.mp hid), List.append_nil]

theorem quiet (h : Account d₀ es l cs d) (hbooked : Booked l.books e l'.books)
    (hserved : e.served = []) (hdrained : e.drained = []) (hpending : l'.pending = l.pending)
    (hmemory : l.memory.Agrees l'.memory) (hdeliveries : l'.deliveries = l.deliveries) :
    Account d₀ (es ++ [e]) l' cs d := by
  obtain ⟨hout, hnext⟩ := hbooked.of_idle hserved hdrained
  refine ⟨?_, h.agrees.trans hmemory, h.size, ?_, ?_, ?_⟩
  · rw [servedIn_append, servedIn_singleton, hserved, List.append_nil]
    exact h.serial
  · refine h.consecutive_after hbooked fun response hresponse => ?_
    rw [hdrained] at hresponse
    cases hresponse
  · rw [hout, hbooked.config_eq, hpending]
    exact h.stands
  · rw [drainedIn_append, hdrained, List.append_nil, hdeliveries]
    exact h.delivered

/-- A request that goes out joins those in flight at the end, and its answer
those on their way. -/
theorem stands_sent {config : AllocatorConfig} (h : Account d₀ es l cs d)
    (hkept : Kept (.empty config) es l.books) {request : Coalesced} {answer : BackendResponse}
    (hperforms : request.Performs l.books.nextId l.books.config.lineSize d answer ds d') :
    List.Forall₂ (Stands (l.books.outstanding.entries ++ [(l.books.nextId, request)])
        d'.memory.contents l.books.config.lineSize (cs ++ ds))
      (l.books.outstanding.entries ++ [(l.books.nextId, request)]) (l.pending ++ [answer]) := by
  refine Stands.all_sent h.stands (fun e hmem => ?_) ?_ hperforms
  · have haccounted := hkept.accounted ((AscMap.mem_entries_iff _ e.1 e.2).mp hmem)
    exact ⟨haccounted.lt, haccounted.uniform⟩
  · refine DelayedMemory.completedUnder_eq_nil h.serial fun x hx => ?_
    exact Nat.ne_of_lt (hkept.lt_of_mem_servedUnder (mem_servedUnder.mpr hx))

/-- A request that goes out is in flight with the answer that the memory made of
it. -/
theorem sent {config : AllocatorConfig} (h : Account d₀ es l cs d)
    (hkept : Kept (.empty config) es l.books) {now granted : Nat} {sent : BackendRequest}
    {request : Coalesced} {answer : BackendResponse}
    (hbooked : Booked l.books (.turned now (.ok (.sent granted sent request))) l'.books)
    (hperforms : request.Performs l.books.nextId l.books.config.lineSize d answer ds d')
    (hpending : l'.pending = l.pending ++ [answer]) (hmemory : d'.Agrees l'.memory)
    (hdeliveries : l'.deliveries = l.deliveries) :
    Account d₀ (es ++ [.turned now (.ok (.sent granted sent request))]) l' (cs ++ ds) d' := by
  obtain ⟨hsent, -, hout, hnext⟩ := hbooked.of_sent
  -- identifiers only grow, so the new request is the last entry
  have hentries : l'.books.outstanding.entries =
      l.books.outstanding.entries ++ [(l.books.nextId, request)] := by
    rw [hout]
    exact AscMap.entries_insert_of_lt request fun k c hk => (hkept.accounted hk).lt
  have hserved : Event.served (.turned now (.ok (.sent granted sent request))) =
      request.origins.map fun o => (l.books.nextId, o) := by
    rw [Event.served_sent, hsent, Coalesced.id_toBackend]
  refine ⟨?_, hmemory,
    (DelayedMemory.size_of_perform hperforms.perform).trans h.size, ?_, ?_, ?_⟩
  · rw [servedIn_append, servedIn_singleton, hserved]
    exact DelayedMemory.serially_append h.serial hperforms.serial
  · exact h.consecutive_after hbooked nofun
  · rw [hentries, hpending, hbooked.config_eq]
    exact h.stands_sent hkept hperforms
  · refine h.delivered_append rfl hdeliveries fun id hid => ?_
    exact DelayedMemory.completedUnder_of_pair_ne hperforms.serial
      (Nat.ne_of_gt (Nat.lt_of_lt_of_le hid h.consecutive.answered_le))

/-- A load that joins one in flight gets the bytes that the line still holds. -/
theorem folded (h : Account d₀ es l cs d) {now granted id lineSize : Nat} {request : Coalesced}
    (hbooked : Booked l.books (.turned now (.ok (.folded granted id request))) l'.books)
    (hconfig : l.books.config.lineSize = lineSize) (hsize : isPowerOfTwo lineSize = true)
    (hsound : ∀ o ∈ request.origins, o.txn.Sound lineSize d.memory.size)
    (hlast : ∀ k store, l.books.outstanding.get? k = some store →
      store.Blocks request → k < id)
    (hpending : l'.pending = l.pending) (hmemory : l.memory.Agrees l'.memory)
    (hdeliveries : l'.deliveries = l.deliveries) :
    Account d₀ (es ++ [.turned now (.ok (.folded granted id request))]) l'
      (cs ++ request.origins.map fun o => (id, o.loaded d.memory.contents.byteAt)) d := by
  obtain ⟨target, merged, hget, hmerged, huniform, hout, hnext⟩ := hbooked.of_folded
  obtain ⟨-, hread', -⟩ := Coalesced.loads_of_absorb? hmerged
  rw [hconfig] at huniform
  have hserial :=
    DelayedMemory.serially_reads id (fun o ho => (huniform o ho).2.trans hread') hsound
  -- the request joined changes in place
  have hentries : l'.books.outstanding.entries =
      l.books.outstanding.entries.map fun e => if e.1 = id then (id, merged) else e := by
    rw [hout]
    exact AscMap.entries_insert_of_get? merged hget
  have htarget := AscMap.eq_of_mem_of_get? hget
  refine ⟨?_, h.agrees.trans hmemory, h.size, ?_, ?_, ?_⟩
  · rw [servedIn_append, servedIn_singleton]
    exact DelayedMemory.serially_append h.serial hserial
  · exact h.consecutive_after hbooked nofun
  · rw [hpending, hbooked.config_eq, hconfig, hentries, List.forall₂_map_left_iff]
    have hstands := h.stands
    rw [hconfig] at hstands
    exact Stands.all_folded hstands htarget
      (fun f hf => hlast f.1 f.2 ((AscMap.mem_entries_iff _ _ _).mp hf)) hmerged
      hsize huniform hsound hserial
  · have hpast := (h.consecutive.of_get? hget).1
    refine h.delivered_append rfl hdeliveries fun k hk => ?_
    exact DelayedMemory.completedUnder_of_pair_ne hserial
      (Nat.ne_of_gt (Nat.lt_of_lt_of_le hk hpast))

/-- The oldest answer belongs to the oldest request in flight. -/
theorem answered (h : Account d₀ es l cs d) {now : Nat} {response : BackendResponse}
    {result : Except Failure Unit}
    (hbooked : Booked l.books (.answered now response result) l'.books)
    (hpending : l.pending = response :: l'.pending) (hmemory : l.memory.Agrees l'.memory)
    (hdeliveries : ∀ request ds, l.books.outstanding.get? response.id = some request →
      request.fanOut response = .ok ds → l'.deliveries = l.deliveries ++ ds) :
    Account d₀ (es ++ [.answered now response result]) l' cs d := by
  have hstands := h.stands
  rw [hpending] at hstands
  -- answers come in order, so this one is for the first entry
  obtain ⟨request, rest, hentries, hcompletes, hrest⟩ :=
    Stands.all_answered hstands l.books.outstanding.ascending
  have hnext : response.id = (drainedIn es).length := h.consecutive.eq_of_entries hentries
  have hget : l.books.outstanding.get? response.id = some request := by
    rw [← AscMap.mem_entries_iff, hentries]
    exact List.mem_cons_self
  have hbooks : l'.books = { l.books with outstanding := l.books.outstanding.erase response.id } :=
    hbooked.of_answered
  have hleft : l'.books.outstanding.entries = rest := by
    rw [hbooks]
    exact AscMap.entries_erase_of_cons hentries
  have hcount : (drainedIn (es ++ [.answered now response result])).length =
      (drainedIn es).length + 1 := by
    rw [drainedIn_append, List.length_append]
    rfl
  refine ⟨?_, h.agrees.trans hmemory, h.size, ?_, ?_, ?_⟩
  · rw [servedIn_append, servedIn_singleton]
    simp only [Event.served, List.append_nil]
    exact h.serial
  · refine h.consecutive_after hbooked fun response' hresponse => ?_
    rw [List.mem_singleton.mp hresponse]
    exact ⟨hnext, hnext ▸ (h.consecutive.of_get? hget).2⟩
  · rw [hleft, hbooks]
    exact hrest
  · rw [hcount, hdeliveries request _ hget hcompletes, h.delivered, List.range_succ,
      List.flatMap_append, List.flatMap_singleton, hnext]

/-- **Every step of the ledger keeps the account.** -/
theorem step {config : AllocatorConfig} (h : Account d₀ es l cs d)
    (hkept : Kept (.empty config) es l.books) (hbooked : Booked l.books e l'.books)
    (hstep : l.Step l' e) (hsize : isPowerOfTwo config.lineSize = true)
    (hdvd : config.lineSize ∣ d₀.memory.size)
    (hsound : ∀ p ∈ e.served, p.2.txn.Sound config.lineSize d₀.memory.size) :
    ∃ cs' d', Account d₀ (es ++ [e]) l' cs' d' := by
  have hconfig : l.books.config = config := hkept.config_eq
  rw [← h.size] at hdvd hsound
  cases hstep with
  | quiet hserved hdrained hpending hmemory hdeliveries =>
    exact ⟨cs, d, h.quiet hbooked hserved hdrained hpending hmemory hdeliveries⟩
  -- what the memory of the account performs, the one it agrees with performs
  | @sent now granted sent request halone hperform hdeliveries =>
    obtain ⟨hsent, huniform, -, -⟩ := hbooked.of_sent
    rw [← hconfig] at hsize hdvd hsound
    have horigins : ∀ o ∈ request.origins, o.txn.Sound _ _ :=
      fun o ho => hsound (sent.id, o) (List.mem_map_of_mem ho)
    obtain ⟨answer, ds, d', hperforms⟩ :=
      Coalesced.exists_performs l.books.nextId hsize hdvd (Nat.le_refl _) huniform halone horigins
    obtain ⟨d₁, hperform₁, hagrees⟩ :=
      DelayedMemory.perform_of_agrees h.agrees hperforms.perform
    rw [← hsent] at hperform₁
    obtain ⟨hpending, hmemory⟩ := hperform answer d₁ hperform₁
    exact ⟨_, _, h.sent hkept hbooked hperforms hpending (hagrees.trans hmemory) hdeliveries⟩
  | @folded now granted id request hread hlast hpending hmemory hdeliveries =>
    have horigins : ∀ o ∈ request.origins, o.txn.Sound _ _ :=
      fun o ho => hsound (id, o) (List.mem_map_of_mem ho)
    exact ⟨_, d, h.folded hbooked (congrArg _ hconfig) hsize horigins hlast hpending hmemory
      hdeliveries⟩
  | answered hpending hmemory hdeliveries =>
    exact ⟨cs, d, h.answered hbooked hpending hmemory hdeliveries⟩

end Account

/-! ### Runs -/

section Play

variable {ρ : Type} [Requestors ρ]

/-- **The account of a run**: it holds of every system that began at rest, as
long as requestors take what they are handed. -/
theorem exists_account {config : AllocatorConfig} {a : Allocator}
    (hnew : Allocator.new config = .ok a) {r : ρ} {d : DelayedMemory} (hidle : d.isIdle = true)
    {j : Journal} (hdvd : config.lineSize ∣ d.memory.size)
    {ms : List (Moment (ρ × DelayedMemory))}
    (hlinked : Linked ⟨a, .start (r, d), j⟩ ms) (hok : Unbroken ms)
    (hpieces : ∀ x ∈ ms, x.Closed ∧
      (∀ o ∈ x.event.accepted, o.txn.Sound config.lineSize d.memory.size) ∧
      ∀ port addr, x.event.failure? ≠ some (.invariant (.deliveryRefused port addr))) :
    ∃ cs d', Account d (ms.map (·.event)) (endOf ⟨a, .start (r, d), j⟩ ms).ledger cs d' := by
  have hbooks := Allocator.books_new hnew
  obtain ⟨hcheck, rfl⟩ := Allocator.eq_of_new hnew
  have hsize := AllocatorConfig.isPowerOfTwo_of_check hcheck
  have hall := Linked.induct (P := fun pre m =>
      Kept (.empty config) (pre.map (·.event)) m.allocator.books ∧
      (∀ o ∈ acceptedIn (pre.map (·.event)), o.txn.Sound config.lineSize d.memory.size) ∧
      ∃ cs d', Account d (pre.map (·.event)) m.ledger cs d') ?_ ?_ hlinked hok hpieces
  · exact hall.2.2
  · refine ⟨?_, nofun, [], d, .start hidle rfl rfl⟩
    simp only [hbooks]
    exact .start
  · intro pre x hpre hx hokx hR
    obtain ⟨hkept, haccepted, cs, d', haccount⟩ := hpre
    obtain ⟨hclosed, hsubmitted, htaken⟩ := hR
    have hbooked := (effect_of_genuine hx hokx).booked
    have hkept' := hkept.step hbooked
    have haccepted' : ∀ o ∈ acceptedIn (pre.map (·.event) ++ [x.event]),
        o.txn.Sound config.lineSize d.memory.size := by
      intro o ho
      rw [acceptedIn_append, acceptedIn_singleton, List.mem_append] at ho
      exact ho.elim (haccepted o) (hsubmitted o)
    -- what leaves a queue had been accepted, so it is sound as well
    have hserved : ∀ p ∈ x.event.served, p.2.txn.Sound config.lineSize d.memory.size := by
      intro p hp
      refine haccepted' p.2 (hkept'.mem_acceptedIn ?_)
      rw [retiredIn_append, retiredIn_singleton]
      exact List.mem_append_right _ (List.mem_map_of_mem hp)
    rw [List.map_append, List.map_singleton]
    exact ⟨hkept', haccepted', haccount.step hkept hbooked
      (step_of_genuine hx hokx hclosed htaken) hsize hdvd hserved⟩

/-- **Coalescing and pipelining cannot be seen.**  Let a new allocator and an
idle memory of whole lines work together until a contract is broken, if ever,
and let requestors take what they are handed.  Every port gives up its
transactions in the order in which they were accepted, and the completions that
are handed out are those of a memory like the one at the start that performs the
transactions one after the other, each on its own, in the order in which they
left their queues.  So a load gets the bytes that the transactions before it
left. -/
theorem serializable {config : AllocatorConfig} {a : Allocator}
    (hnew : Allocator.new config = .ok a) (r : ρ) {d : DelayedMemory} (hidle : d.isIdle = true)
    (j : Journal) (hdvd : config.lineSize ∣ d.memory.size) {acts : List Act}
    (hsound : ∀ now port txn, .submit now port txn ∈ acts →
      txn.Sound config.lineSize d.memory.size)
    {ms : List (Moment (ρ × DelayedMemory))} (hrun : ms <+: play acts ⟨a, .start (r, d), j⟩)
    (hok : Unbroken ms)
    (hwilling : ∀ x ∈ ms, ∀ port addr,
      x.event.failure? ≠ some (.invariant (.deliveryRefused port addr))) :
    (∀ port, Origin.txnsOf port (retiredIn (ms.map (·.event))) <+:
      Origin.txnsOf port (acceptedIn (ms.map (·.event)))) ∧
    ∃ cs d', d.serially (servedIn (ms.map (·.event))) = .ok (cs, d') ∧
      d'.Agrees (endOf ⟨a, .start (r, d), j⟩ ms).memory ∧
      (endOf ⟨a, .start (r, d), j⟩ ms).surroundings.deliveries =
        (List.range (drainedIn (ms.map (·.event))).length).flatMap (completedUnder · cs) ∧
      ∀ earlier later id o, servedIn (ms.map (·.event)) = earlier ++ (id, o) :: later →
        o.txn.cmd = .read → ∃ before d₁ after, d.serially earlier = .ok (before, d₁) ∧
          cs = before ++ (id, o.loaded d₁.memory.contents.byteAt) :: after := by
  have hlinked := (linked_play acts ⟨a, .start (r, d), j⟩).initial hrun
  have hpieces : ∀ x ∈ ms, x.Closed ∧
      (∀ o ∈ x.event.accepted, o.txn.Sound config.lineSize d.memory.size) ∧
      ∀ port addr, x.event.failure? ≠ some (.invariant (.deliveryRefused port addr)) := by
    intro x hx
    obtain ⟨hclosed, haccepted⟩ := closed_play (hrun.subset hx)
    refine ⟨hclosed, fun o ho => ?_, hwilling x hx⟩
    obtain ⟨now, hact⟩ := haccepted o ho
    exact hsound now o.port o.txn hact
  have hkept := hlinked.kept hok
  rw [Allocator.books_new hnew] at hkept
  obtain ⟨cs, d', haccount⟩ := exists_account hnew hidle hdvd hlinked hok hpieces
  have hserial := haccount.serial
  refine ⟨fun port => ⟨_, hkept.fifo port⟩, cs, d', hserial, haccount.agrees,
    haccount.delivered, fun earlier later id o hsplit hread => ?_⟩
  -- a load that left its queue at some point reads what the memory held there
  rw [hsplit] at hserial
  exact DelayedMemory.loaded_of_serially hread hserial

end Play

/-- A load goes out, and a store to its line after it.  Of two more loads of the
line, the second joins the first, not the one that went out before the store. -/
def joinedLoads : List Act :=
  [.submit 0 0 (.load .read 1 64 4), .submit 0 1 (.store .write 2 64 [1, 2, 3, 4]),
    .tick 0, .tick 1,
    .submit 1 2 (.load .read 3 66 2), .tick 2, .submit 2 0 (.load .read 4 64 4), .tick 3,
    .memoryTick 10, .tick 11, .memoryTick 11, .tick 12, .memoryTick 12, .tick 13]

/-- A memory of two lines. -/
def twoLines : DelayedMemory where
  config := {}
  memory := .ofSize 128
  inflight := .ofConfig ⟨8, 8⟩
  reservations := ∅
  oweRetry := false
  responseBlocked := false
  fault := none
  stats := {}

/-- Where the loads and the store begin. -/
def joinedLoadsStart : System Lanes :=
  ⟨.ofConfig { numPorts := 3, requestLatency := 0, enableCoalescing := true },
    .start (Lanes.plain 3, twoLines), .start .warn⟩

/-- The loads after the store get what it stored, from one access. -/
theorem serializable_joinedLoads : ∃ cs d',
    twoLines.serially
      [(0, ⟨0, .load .read 1 64 4⟩), (1, ⟨1, .store .write 2 64 [1, 2, 3, 4]⟩),
      (2, ⟨2, .load .read 3 66 2⟩), (2, ⟨0, .load .read 4 64 4⟩)] = .ok (cs, d') ∧
    (List.range 3).flatMap (completedUnder · cs) =
      [(0, ⟨1, .read, 64, [0, 0, 0, 0], true⟩), (1, ⟨2, .write, 64, [], true⟩),
        (2, ⟨3, .read, 66, [3, 4], true⟩), (0, ⟨4, .read, 64, [1, 2, 3, 4], true⟩)] := by
  have hnew : Allocator.new { numPorts := 3, requestLatency := 0, enableCoalescing := true } =
      .ok joinedLoadsStart.allocator := by rfl
  have hsound : ∀ now port txn, .submit now port txn ∈ joinedLoads → txn.Sound 64 128 := by
    intro now port txn h
    simp only [joinedLoads, List.mem_cons, Act.submit.injEq, List.not_mem_nil, or_false,
      reduceCtorEq, false_or] at h
    rcases h with ⟨-, -, rfl⟩ | ⟨-, -, rfl⟩ | ⟨-, -, rfl⟩ | ⟨-, -, rfl⟩
    · exact ⟨by decide, by decide, by decide, by decide⟩
    · exact ⟨by decide, by decide, by decide, by decide⟩
    · exact ⟨by decide, by decide, by decide, by decide⟩
    · exact ⟨by decide, by decide, by decide, by decide⟩
  have hfine : ∀ x ∈ play joinedLoads joinedLoadsStart, x.event.failure? = none := by
    decide +kernel
  obtain ⟨-, cs, d', hserial, -, hdeliveries, -⟩ := serializable hnew (Lanes.plain 3)
    (d := twoLines) rfl (.start .warn) (by decide) hsound List.prefix_rfl (by decide +kernel)
    fun x hx port addr hfailed => by
      rw [hfine x hx] at hfailed
      cases hfailed
  have hserved : servedIn ((play joinedLoads joinedLoadsStart).map (·.event)) =
      [(0, ⟨0, .load .read 1 64 4⟩), (1, ⟨1, .store .write 2 64 [1, 2, 3, 4]⟩),
        (2, ⟨2, .load .read 3 66 2⟩), (2, ⟨0, .load .read 4 64 4⟩)] := by decide +kernel
  have hdrained : (drainedIn ((play joinedLoads joinedLoadsStart).map (·.event))).length = 3 := by
    decide +kernel
  have hended :
      (endOf joinedLoadsStart (play joinedLoads joinedLoadsStart)).surroundings.deliveries =
        [(0, ⟨1, .read, 64, [0, 0, 0, 0], true⟩), (1, ⟨2, .write, 64, [], true⟩),
          (2, ⟨3, .read, 66, [3, 4], true⟩), (0, ⟨4, .read, 64, [1, 2, 3, 4], true⟩)] := by
    decide +kernel
  refine ⟨cs, d', ?_, ?_⟩
  · rw [← hserved]
    exact hserial
  · rw [← hended, ← hdrained]
    exact hdeliveries.symm

end MemPort
