import MemPort.Bench.Lanes
import MemPort.DelayedMemory
import MemPort.Proofs.Bookkeeping
import MemPort.Proofs.Lines

/-!
# Which loads see a store

Let the memory perform every access when it accepts it, and answer a load with
the bytes it saw then, in whatever order.  A load that leaves its queue after a
store to its line went out is served either by a request that went out after the
store, and sees it, or by one that went out before, and does not.

The scan for a load to join passes over the loads with a store behind them.  It
looks at the requests in flight alone, so once the answer of the store is
drained ahead of that of an older load, nothing stands behind that load any
more.  The store is seen exactly if, when the load leaves its queue, every older
load of the line still in flight is *fenced* by a store of the line in flight.

## Main definitions

* `Truthful` — the answers of a memory that performs accesses when it accepts
  them.
* `Allocator.Fenced` — every older load of a line has a store of the line
  behind it.

## Main results

* `Effect.fenced_iff` — which request serves a load.
* `sides_of_sent` — the numbers tell when a request went out.
* `load_sees_store` — which bytes a load gets.
* `store_hidden_from_load` — a load that is submitted after a store was
  answered need not see it.

## References

`SPEC_FULL.md`, section 8, correctness of time coalescing; section 10.6, item 7:
a load does not fold past a younger store.
-/

namespace MemPort

/-- Every load of a line in flight that is older than a request has a store of
the line in flight behind it. -/
def Allocator.Fenced (a : Allocator) (line id : Nat) : Prop :=
  ∀ j load, a.outstanding.get? j = some load → load.line = line →
    load.cmd = .read → j < id →
    ∃ k store, a.outstanding.get? k = some store ∧ j < k ∧ store.line = line ∧
      store.cmd.isExclusive = true

section Genuine

variable {σ : Type} [Requestors σ] [Backend σ]

/-- **Which request serves a load**: one of a given number or a later one, if
and only if the loads in flight with smaller numbers are fenced. -/
theorem Effect.fenced_iff {m m' : Assembly (Recorded σ)} {e : Event} (h : Effect m m' e)
    (hon : m.allocator.config.enableCoalescing = true) {id k : Nat} {o : Origin}
    (hserved : (id, o) ∈ e.served) (hread : o.txn.cmd = .read) (hk : k ≤ m.allocator.nextId) :
    m.allocator.Fenced (m.allocator.config.lineOf o.txn.addr) k ↔ k ≤ id := by
  cases h with
  | turned _ hok h =>
    cases h with
    | @served m₁ _ _ head request _ hcleared hformed hhead =>
      -- the check of the lock leaves what is in flight as it is
      obtain ⟨c, table, ports, stats, -, -, -, ha⟩ := hcleared.allocator
      have hconfig : m₁.allocator.config = m.allocator.config := by rw [ha]
      have hnext : m₁.allocator.nextId = m.allocator.nextId := by rw [ha]
      have hout : m₁.allocator.outstanding = m.allocator.outstanding := by rw [ha]
      -- the load is one of a request that loads its line
      have hload : o ∈ request.origins →
          request.line = m.allocator.config.lineOf o.txn.addr ∧ request.cmd = .read := by
        intro ho
        obtain ⟨hline, hcmd⟩ := hformed.uniform o ho
        exact ⟨hline.symm, hcmd ▸ hread⟩
      cases hhead with
      | broken a => exact absurd rfl (hok a)
      | duplicate _ _ _ => cases hserved
      | refused _ => cases hserved
      | @sent _ sent hsends htarget =>
        obtain ⟨o', ho, heq⟩ := List.mem_map.mp hserved
        cases heq
        obtain ⟨hline, hcmd⟩ := hload ho
        have hnone := htarget (by rw [hconfig]; exact hon) hcmd
        have hle : k ≤ sent.id := by
          rw [hsends.sent_eq, Coalesced.id_toBackend, hnext]
          exact hk
        refine iff_of_true (fun j load hj hjline hjcmd _ => ?_) hle
        rw [← hout] at hj ⊢
        rw [← hline] at hjline ⊢
        obtain ⟨i, store, hi, hji, hblocks⟩ := Allocator.foldTarget?_eq_none hcmd hnone hj
          ⟨hjline, hjcmd.trans hcmd.symm⟩
        exact ⟨i, store, hi, hji, hblocks⟩
      | folded hfolds hcmd =>
        obtain ⟨o', ho, heq⟩ := List.mem_map.mp hserved
        cases heq
        obtain ⟨hline, -⟩ := hload ho
        obtain ⟨⟨pending, hpending, hjoins⟩, hlast, hfirst⟩ :=
          Allocator.foldTarget?_eq_some hcmd hfolds.target
        rw [hout] at hpending hlast hfirst
        constructor
        · -- an older load would be the one that is joined, which no store stands behind
          intro hfenced
          by_contra hge
          have hlt : id < k := Nat.lt_of_not_le hge
          obtain ⟨i, store, hi, hidi, hstore⟩ := hfenced id pending hpending
            (hjoins.1.trans hline) (hjoins.2.trans hcmd) hlt
          rw [← hline] at hstore
          exact Nat.lt_asymm hidi (hlast i store hi hstore)
        · intro hle j load hj hjline hjcmd hjk
          obtain ⟨i, store, hi, hji, hblocks⟩ := hfirst j load hj
            ⟨hjline.trans hline.symm, hjcmd.trans hcmd.symm⟩ (Nat.lt_of_lt_of_le hjk hle)
          rw [← hline]
          exact ⟨i, store, hi, hji, hblocks⟩
    | idle _ => cases hserved
    | parked _ _ _ _ _ => cases hserved
    | spilled _ _ _ _ => cases hserved
  | submitted _ _ _ => cases hserved
  | _ => cases hserved

omit [Requestors σ] [Backend σ] in
/-- An answer that is taken is that of the memory: it answers a request that
went out before, and a load with the bytes that the memory showed when it
accepted it. -/
def Moment.Faithful (view : σ → Nat → UInt8) (done : List (Moment σ))
    (r : Moment σ) : Prop :=
  ∀ response ∈ r.event.taken, ∃ w ∈ done, ∃ asked ∈ w.event.sent,
    asked.id = response.id ∧
    (asked.cmd = .read →
      response.data = (span asked.addr asked.size).map (view w.before.surroundings.inner))

omit [Requestors σ] [Backend σ] in
/-- The answers of a memory that performs accesses when it accepts them, in any
order.  The bytes in the memory are those that `view` shows. -/
def Truthful (view : σ → Nat → UInt8) (ms : List (Moment σ)) : Prop :=
  ∀ done r rest, ms = done ++ r :: rest → r.Faithful view done

/-- **What an answer hands out to a load**: it is the oldest that waits, its
request is a load in flight, and all loads behind that request get the bytes
that the answer shows of their line. -/
theorem Kept.loads_of_answered {config : AllocatorConfig} {es : List Event}
    {m m' : Assembly (Recorded σ)} (h : Kept (.empty config) es m.allocator.books) {now : Nat}
    {answer : BackendResponse} (heffect : Effect m m' (.answered now answer (.ok ()))) {o : Origin}
    (ho : o ∈ servedUnder answer.id es) (hread : o.txn.cmd = .read) :
    (∃ waiting, m.allocator.answers = answer :: waiting) ∧
      ∃ request, m.allocator.books.outstanding.get? answer.id = some request ∧
      request.cmd = .read ∧
        ∀ bytes, answer.data = (span request.line config.lineSize).map bytes →
          m'.surroundings.deliveries = m.surroundings.deliveries ++
            (servedUnder answer.id es).map (·.loaded bytes) := by
  cases heffect with
  | answered hdrain _ hhanded _ =>
    cases hhanded with
    | @all _ request ds hrequest hds hdeliveries =>
      have haccount := h.accounted hrequest
      have huniform := haccount.uniform
      rw [haccount.origins] at ho ⊢
      have hcmd : request.cmd = .read := by
        rw [← (huniform o ho).2]
        exact hread
      rw [h.config_eq] at huniform
      refine ⟨⟨_, Allocator.answers_drain? hdrain⟩, request, hrequest, hcmd,
        fun bytes hdata => ?_⟩
      rw [hdeliveries, Coalesced.fanOut_of_read hcmd huniform hdata hds]

/-- The completions that an answer hands out, if one of them is for a load: they
carry the bytes that the memory showed when it accepted the request. -/
theorem loaded_of_answered {config : AllocatorConfig} {a : Allocator}
    (hnew : Allocator.new config = .ok a) {s : σ} {j : Journal} {calls : List (Call σ)}
    {view : σ → Nat → UInt8} (htruth : Truthful view (run calls ⟨a, .start s, j⟩))
    {pre rest : List (Moment σ)} {z : Moment σ}
    (hrun : run calls ⟨a, .start s, j⟩ = pre ++ z :: rest) {now : Nat}
    {response : BackendResponse} (hz : z.event = .answered now response (.ok ())) {o : Origin}
    (ho : o ∈ servedUnder response.id (pre.map (·.event))) (hread : o.txn.cmd = .read) :
    ∃ w ∈ pre, ∃ asked ∈ w.event.sent, asked.id = response.id ∧ asked.cmd = .read ∧
      z.after.surroundings.deliveries = z.before.surroundings.deliveries ++
        (servedUnder response.id (pre.map (·.event))).map
          (·.loaded (view w.before.surroundings.inner)) := by
  have hlinks := linked_run calls ⟨a, .start s, j⟩
  rw [hrun] at hlinks
  obtain ⟨hpre, hok, hbefore, hgenuine, -⟩ := hlinks.split_cons
  have hkept := hpre.kept hok
  have hinrun : ∀ x ∈ pre, x ∈ run calls ⟨a, .start s, j⟩ := by
    intro x hx
    rw [hrun]
    exact List.mem_append_left _ hx
  have hqueue := hpre.answers_eq hok fun x hx => allocator_elapsed (hinrun x hx)
  rw [Allocator.books_new hnew, ← hbefore] at hkept
  rw [← hbefore] at hqueue
  have heffect := effect_of_genuine hgenuine (by rw [hz]; rfl)
  rw [hz] at heffect
  obtain ⟨⟨waiting, hwaiting⟩, request, hrequest, hcmd, hloaded⟩ :=
    hkept.loads_of_answered heffect ho hread
  -- the answer was taken before
  have htaken : response ∈ takenIn (pre.map (·.event)) := by
    have hempty : (⟨a, .start s, j⟩ : Assembly (Recorded σ)).allocator.answers = [] := by
      rw [(Allocator.eq_of_new hnew).2]
      rfl
    rw [hempty, List.nil_append, hwaiting] at hqueue
    rw [hqueue]
    exact List.mem_append_right _ List.mem_cons_self
  obtain ⟨e, he, htaken⟩ := List.mem_flatMap.mp htaken
  obtain ⟨r, hr, rfl⟩ := List.mem_map.mp he
  obtain ⟨done, later, hsplit⟩ := List.append_of_mem hr
  rw [hsplit, List.append_assoc] at hrun
  obtain ⟨w, hw, asked, hasked, hid, hdata⟩ := htruth done r _ hrun response htaken
  have hwpre : w ∈ pre := by
    rw [hsplit]
    exact List.mem_append_left _ hw
  -- it is that to the load in flight
  have hsaw : asked = request.toBackend response.id config.lineSize := by
    have hmem : asked ∈ sentIn (pre.map (·.event)) :=
      List.mem_flatMap.mpr ⟨w.event, List.mem_map_of_mem hwpre, hasked⟩
    have hget := hkept.getElem?_sentIn hmem
    rw [hid, (hkept.accounted hrequest).sent, hkept.config_eq] at hget
    exact (Option.some.inj hget).symm
  rw [Coalesced.toBackend_of_read hcmd] at hsaw
  rw [hsaw] at hdata
  exact ⟨w, hwpre, asked, hasked, hid, by rw [hsaw], hloaded _ (hdata rfl)⟩

omit [Requestors σ] [Backend σ] in
/-- **Where a request went out** that has a number from before the end of the
piece `y`: the numbers tell on which side of a piece `x` before `y` that was. -/
theorem sides_of_sent {config : AllocatorConfig} {pre mid post : List (Moment σ)}
    {x y w : Moment σ}
    {b : Books} (hpre : Kept (.empty config) (pre.map (·.event)) x.before.allocator.books)
    (hmid : Kept x.after.allocator.books (mid.map (·.event)) y.before.allocator.books)
    (hy : Booked y.before.allocator.books y.event y.after.allocator.books)
    (hpost : Kept y.after.allocator.books (post.map (·.event)) b)
    (hw : w ∈ pre ++ x :: (mid ++ y :: post)) {asked : BackendRequest}
    (hasked : asked ∈ w.event.sent) (hlt : asked.id < y.after.allocator.nextId) :
    w ∈ pre ∧ asked.id < x.before.allocator.nextId ∨ w = x ∨
      w ∈ mid ++ [y] ∧ x.after.allocator.nextId ≤ asked.id := by
  have hsent : ∀ {ms : List (Moment σ)}, w ∈ ms → asked ∈ sentIn (ms.map (·.event)) :=
    fun hmem => List.mem_flatMap.mpr ⟨w.event, List.mem_map_of_mem hmem, hasked⟩
  rcases List.mem_append.mp hw with hw | hw
  · exact Or.inl ⟨hw, (hpre.id_mem_sentIn (hsent hw)).2⟩
  rcases List.mem_cons.mp hw with rfl | hw
  · exact Or.inr (Or.inl rfl)
  rcases List.mem_append.mp hw with hw | hw
  · exact Or.inr (Or.inr ⟨List.mem_append_left _ hw, (hmid.id_mem_sentIn (hsent hw)).1⟩)
  rcases List.mem_cons.mp hw with rfl | hw
  · have hone : Kept w.before.allocator.books [w.event] w.after.allocator.books :=
      Kept.start.step hy
    exact Or.inr (Or.inr ⟨List.mem_append_right _ List.mem_cons_self,
      Nat.le_trans hmid.nextId_le (hone.id_mem_sentIn (hsent (List.mem_singleton_self w))).1⟩)
  · -- what goes out after `y` has a later number
    exact absurd hlt (Nat.not_lt_of_le (hpost.id_mem_sentIn (hsent hw)).1)

/-- **Which bytes a load gets.**  Let a store go out, and after it a load of its
line leave its queue, which is answered later on.  All loads that share its
answer get the bytes that the memory showed when it accepted their request.  If
the older loads of the line were fenced when the load left its queue, that was
after it accepted the store; if not, it was before. -/
theorem load_sees_store {config : AllocatorConfig} {a : Allocator}
    (hnew : Allocator.new config = .ok a) (hon : config.enableCoalescing = true) (s : σ)
    (j : Journal) {calls : List (Call σ)} {view : σ → Nat → UInt8}
    (htruth : Truthful view (run calls ⟨a, .start s, j⟩))
    {pre mid post rest : List (Moment σ)} {x y z : Moment σ}
    (hrun : run calls ⟨a, .start s, j⟩ = pre ++ x :: (mid ++ y :: (post ++ z :: rest)))
    {stored : BackendRequest} (hx : stored ∈ x.event.sent)
    (hstored : stored.cmd.isExclusive = true)
    {id : Nat} {o : Origin} (hy : (id, o) ∈ y.event.served) (hread : o.txn.cmd = .read)
    (hline : config.lineOf o.txn.addr = config.lineOf stored.addr)
    {now : Nat} {response : BackendResponse} (hz : z.event = .answered now response (.ok ()))
    (hid : response.id = id) :
    ∃ w asked, asked ∈ w.event.sent ∧ asked.id = id ∧
      (w ∈ mid ++ [y] ∧ y.before.allocator.Fenced (config.lineOf stored.addr) stored.id ∨
        w ∈ pre ∧ ¬ y.before.allocator.Fenced (config.lineOf stored.addr) stored.id) ∧
      z.after.surroundings.deliveries = z.before.surroundings.deliveries ++
        (servedUnder id ((pre ++ x :: (mid ++ y :: post)).map (·.event))).map
          (·.loaded (view w.before.surroundings.inner)) := by
  subst hid
  have hlinks := linked_run calls ⟨a, .start s, j⟩
  rw [hrun] at hlinks
  obtain ⟨hpre, hokpre, hbefore, hgenx, hlinks⟩ := hlinks.split_cons
  obtain ⟨hmid, hokmid, hbeforey, hgeny, hlinks⟩ := hlinks.split_cons
  obtain ⟨hpost, hokpost, -, -, -⟩ := hlinks.split_cons
  have heffectx := effect_of_genuine hgenx (Event.isBroken_of_mem_sent hx)
  have heffecty := effect_of_genuine hgeny (Event.isBroken_of_mem_served hy)
  -- the books between the pieces
  have hkept := hpre.kept hokpre
  rw [Allocator.books_new hnew, ← hbefore] at hkept
  have hkeptx : Kept x.before.allocator.books [x.event] x.after.allocator.books :=
    Kept.start.step heffectx.booked
  have hkeptmid := hmid.kept hokmid
  rw [← hbeforey] at hkeptmid
  have hkepty : Kept y.before.allocator.books [y.event] y.after.allocator.books :=
    Kept.start.step heffecty.booked
  have hkeptall := ((hkept.trans hkeptx).trans hkeptmid)
  -- the numbers of the store and of the request that serves the load
  obtain ⟨hge, hlt⟩ := hkeptx.id_mem_sentIn (by rwa [sentIn_singleton])
  have hltmid := Nat.lt_of_lt_of_le hlt hkeptmid.nextId_le
  have hserved : response.id < y.after.allocator.books.nextId :=
    (hkeptall.trans hkepty).lt_of_mem_servedUnder (mem_servedUnder.mpr (by
      rw [servedIn_append, servedIn_singleton]
      exact List.mem_append_right _ hy))
  have hconfig : y.before.allocator.config = config := hkeptall.config_eq
  have hfenced : response.id ≠ stored.id →
      (y.before.allocator.Fenced (config.lineOf stored.addr) stored.id ↔
        stored.id < response.id) := by
    intro hne
    have hiff := heffecty.fenced_iff (by rw [hconfig]; exact hon) hy hread (Nat.le_of_lt hltmid)
    rw [hconfig, hline] at hiff
    exact hiff.trans ⟨fun hle => Nat.lt_of_le_of_ne hle (Ne.symm hne), Nat.le_of_lt⟩
  -- where the request went out
  have hrunz : run calls ⟨a, .start s, j⟩ = (pre ++ x :: (mid ++ y :: post)) ++ z :: rest := by
    rw [hrun]
    simp only [List.append_assoc, List.cons_append]
  have hunder : o ∈ servedUnder response.id
      ((pre ++ x :: (mid ++ y :: post)).map (·.event)) :=
    mem_servedUnder.mpr (List.mem_flatMap.mpr ⟨y.event, by simp, hy⟩)
  obtain ⟨w, hw, asked, hasked, hid, hcmd, hdeliveries⟩ :=
    loaded_of_answered hnew htruth hrunz hz hunder hread
  refine ⟨w, asked, hasked, hid, ?_, hdeliveries⟩
  rcases sides_of_sent hkept hkeptmid heffecty.booked (hpost.kept hokpost) hw hasked
    (hid ▸ hserved) with
    ⟨hw, hold⟩ | rfl | ⟨hw, hyoung⟩
  · have hold : asked.id < x.before.allocator.books.nextId := hold
    exact Or.inr ⟨hw, fun hf => by have := (hfenced (by omega)).mp hf; omega⟩
  · -- the store is no load
    rw [Event.eq_of_mem_sent hasked hx] at hcmd
    rw [hcmd] at hstored
    cases hstored
  · have hyoung : x.after.allocator.books.nextId ≤ asked.id := hyoung
    exact Or.inl ⟨hw, (hfenced (by omega)).mpr (by omega)⟩

end Genuine

/-! ### A store that is not seen -/

/-- The bytes in a memory with a latency. -/
def byteIn (s : Lanes × DelayedMemory) : Nat → UInt8 := s.2.memory.contents.byteAt

/-- A load goes out, and a store to its line after it.  The store is answered
first, then another load of the line is submitted and joins the first. -/
def overtaken : List (Call (Lanes × DelayedMemory)) :=
  [.submit 0 0 (.load .read 1 64 4), .tick 0,
    .submit 1 1 (.store .write 2 64 [1, 2, 3, 4]), .tick 1,
    .receive 1 ⟨1, [], true⟩, .tick 2, .submit 3 2 (.load .read 3 64 4), .tick 3,
    .receive 3 ⟨0, List.replicate 64 0, true⟩, .tick 4]

/-- Where the three lanes begin. -/
def overtakenStart : Assembly (Recorded (Lanes × DelayedMemory)) :=
  ⟨.ofConfig { numPorts := 3, requestLatency := 0, enableCoalescing := true },
    .start (Lanes.plain 3,
      { config := {}, memory := .ofSize 128, inflight := .ofConfig ⟨8, 8⟩, reservations := ∅,
        oweRetry := false, responseBlocked := false, fault := none, stats := {} }),
    .start .warn⟩

/-- The answers of that run are those of the memory. -/
theorem truthful_overtaken : Truthful byteIn (run overtaken overtakenStart) := by
  have hall : ∀ i < (run overtaken overtakenStart).length,
      ∀ r ∈ (run overtaken overtakenStart)[i]?, ∀ response ∈ r.event.taken,
      ∃ w ∈ (run overtaken overtakenStart).take i, ∃ asked ∈ w.event.sent,
      asked.id = response.id ∧
        (asked.cmd = .read →
          response.data =
            (span asked.addr asked.size).map (byteIn w.before.surroundings.inner)) := by
    decide +kernel
  intro done r rest hsplit
  have hlt : done.length < (run overtaken overtakenStart).length := by
    rw [hsplit, List.length_append, List.length_cons]
    omega
  have hfaithful := hall done.length hlt r (by rw [hsplit]; simp)
  rwa [hsplit, List.take_left] at hfaithful

/-- The late load shares the answer of the first. -/
theorem load_sees_store_overtaken : ∃ w z : Moment (Lanes × DelayedMemory),
    ∃ asked ∈ w.event.sent, asked.id = 0 ∧
      z.event = .answered 4 ⟨0, List.replicate 64 0, true⟩ (.ok ()) ∧
      z.after.surroundings.deliveries = z.before.surroundings.deliveries ++
        [⟨0, .load .read 1 64 4⟩, ⟨2, .load .read 3 64 4⟩].map
          (Origin.loaded · (byteIn w.before.surroundings.inner)) := by
  obtain ⟨x, hx⟩ : ∃ x, (run overtaken overtakenStart)[6]? = some x :=
    Option.isSome_iff_exists.mp (by decide +kernel)
  obtain ⟨y, hy⟩ : ∃ y, ((run overtaken overtakenStart).drop 7)[9]? = some y :=
    Option.isSome_iff_exists.mp (by decide +kernel)
  obtain ⟨z, hz⟩ : ∃ z, (((run overtaken overtakenStart).drop 7).drop 10)[3]? = some z :=
    Option.isSome_iff_exists.mp (by decide +kernel)
  have hstored : ∀ x ∈ (run overtaken overtakenStart)[6]?,
      ⟨1, 1, .write, 64, 4, [1, 2, 3, 4]⟩ ∈ x.event.sent := by decide +kernel
  have hserved : ∀ y ∈ ((run overtaken overtakenStart).drop 7)[9]?,
      (0, ⟨2, .load .read 3 64 4⟩) ∈ y.event.served := by decide +kernel
  have hanswered : ∀ z ∈ (((run overtaken overtakenStart).drop 7).drop 10)[3]?,
      z.event = .answered 4 ⟨0, List.replicate 64 0, true⟩ (.ok ()) := by decide +kernel
  have hnew : Allocator.new { numPorts := 3, requestLatency := 0, enableCoalescing := true } =
      .ok overtakenStart.allocator := by rfl
  have hrun := eq_of_piece hx
  rw [eq_of_piece hy, eq_of_piece hz] at hrun
  obtain ⟨w, asked, hasked, hid, -, hdeliveries⟩ := load_sees_store hnew rfl
    overtakenStart.surroundings.inner (.start .warn) truthful_overtaken hrun (hstored x hx)
    (by decide) (hserved y hy) (by decide) (by decide) (hanswered z hz) rfl
  have hshared : servedUnder 0 (((run overtaken overtakenStart).take 20).map (·.event)) =
      [⟨0, .load .read 1 64 4⟩, ⟨2, .load .read 3 64 4⟩] := by decide +kernel
  rw [← take_of_piece hy, ← take_of_piece hx, hshared] at hdeliveries
  exact ⟨w, z, asked, hasked, hid, hanswered z hz, hdeliveries⟩

/-- **A store that was answered need not be seen.**  A load may be submitted
after the answer of a store to its line was handed out, and still get bytes that
the memory does not show at any moment from the store on. -/
theorem store_hidden_from_load : ¬ ∀ (config : AllocatorConfig) (a : Allocator),
    Allocator.new config = .ok a → config.enableCoalescing = true →
    ∀ (s : Lanes × DelayedMemory) (j : Journal) (calls : List (Call (Lanes × DelayedMemory))),
    (∀ c ∈ calls, ∀ now port txn, c ≠ .functional now port txn) →
    ∀ ms, ms = run calls ⟨a, .start s, j⟩ → Truthful byteIn ms →
    -- a store goes out and is answered, and a load of its line is submitted, served
    -- and answered
    ∀ (i₁ i₂ i₃ i₄ i₅ : Nat) (x d u y z : Moment (Lanes × DelayedMemory)),
    i₁ < i₂ → i₂ < i₃ → i₃ < i₄ → i₄ < i₅ → ms[i₁]? = some x →
    ms[i₂]? = some d →
    ms[i₃]? = some u → ms[i₄]? = some y → ms[i₅]? = some z →
    ∀ stored ∈ x.event.sent, stored.cmd.isExclusive = true →
    ∀ now data, d.event = .answered now ⟨stored.id, data, true⟩ (.ok ()) →
    ∀ o, u.event.accepted = [o] → o.txn.cmd = .read →
    config.lineOf o.txn.addr = config.lineOf stored.addr →
    ∀ id, (id, o) ∈ y.event.served →
    ∀ now data success, z.event = .answered now ⟨id, data, success⟩ (.ok ()) →
    ∃ k w, i₁ ≤ k ∧ ms[k]? = some w ∧
      o.loaded (byteIn w.after.surroundings.inner) ∈ z.after.surroundings.deliveries := by
  intro hclaim
  obtain ⟨x, hx⟩ : ∃ x, (run overtaken overtakenStart)[6]? = some x :=
    Option.isSome_iff_exists.mp (by decide +kernel)
  obtain ⟨d, hd⟩ : ∃ d, (run overtaken overtakenStart)[9]? = some d :=
    Option.isSome_iff_exists.mp (by decide +kernel)
  obtain ⟨u, hu⟩ : ∃ u, (run overtaken overtakenStart)[14]? = some u :=
    Option.isSome_iff_exists.mp (by decide +kernel)
  obtain ⟨y, hy⟩ : ∃ y, (run overtaken overtakenStart)[16]? = some y :=
    Option.isSome_iff_exists.mp (by decide +kernel)
  obtain ⟨z, hz⟩ : ∃ z, (run overtaken overtakenStart)[20]? = some z :=
    Option.isSome_iff_exists.mp (by decide +kernel)
  have hstored : ∀ x ∈ (run overtaken overtakenStart)[6]?,
      ⟨1, 1, .write, 64, 4, [1, 2, 3, 4]⟩ ∈ x.event.sent := by decide +kernel
  have hdone : ∀ d ∈ (run overtaken overtakenStart)[9]?,
      d.event = .answered 2 ⟨1, [], true⟩ (.ok ()) := by decide +kernel
  have haccepted : ∀ u ∈ (run overtaken overtakenStart)[14]?,
      u.event.accepted = [⟨2, .load .read 3 64 4⟩] := by decide +kernel
  have hserved : ∀ y ∈ (run overtaken overtakenStart)[16]?,
      (0, ⟨2, .load .read 3 64 4⟩) ∈ y.event.served := by decide +kernel
  have hanswered : ∀ z ∈ (run overtaken overtakenStart)[20]?,
      z.event = .answered 4 ⟨0, List.replicate 64 0, true⟩ (.ok ()) := by decide +kernel
  have hstale : ∀ z ∈ (run overtaken overtakenStart)[20]?,
      ∀ w ∈ (run overtaken overtakenStart).drop 6,
      Origin.loaded ⟨2, .load .read 3 64 4⟩ (byteIn w.after.surroundings.inner) ∉
        z.after.surroundings.deliveries := by decide +kernel
  have hnew : Allocator.new { numPorts := 3, requestLatency := 0, enableCoalescing := true } =
      .ok overtakenStart.allocator := by rfl
  have hfunctional : ∀ c ∈ overtaken, ∀ now port txn, c ≠ .functional now port txn := by
    intro c hc now port txn heq
    subst heq
    simp [overtaken] at hc
  obtain ⟨k, w, hk, hw, hloaded⟩ := hclaim _ _ hnew rfl overtakenStart.surroundings.inner
    (.start .warn) overtaken hfunctional _ rfl truthful_overtaken 6 9 14 16 20 x d u y z (by decide)
    (by decide) (by decide) (by decide) hx hd hu hy hz _ (hstored x hx) (by decide) _ _ (hdone d hd)
    _ (haccepted u hu) (by decide) (by decide) _ (hserved y hy) _ _ _ (hanswered z hz)
  refine hstale z hz w (List.mem_of_getElem? (i := k - 6) ?_) hloaded
  rw [List.getElem?_drop, Nat.add_sub_cancel' hk]
  exact hw

end MemPort
