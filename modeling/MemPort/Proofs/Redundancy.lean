import MemPort.Bench.Lanes
import MemPort.Bench.EchoMemory
import MemPort.Proofs.InOrder

/-!
# No load is sent twice

With coalescing, a load goes out only where no load of its line in flight could
stand in for it.  If the memory answers in order, nothing in flight can be lost
from the middle, and so two loads of one line are never in flight together
unless a store of the line went out between them.  And a load that leaves its
queue takes every visible load of its line with it.

## Main definitions

* `Books.Routes` — what the requests in flight say about how a head was
  served.
* `Books.Spaced` — two loads of a line in flight have a store of the line
  between them.

## Main results

* `routes_of_genuine` — every turn serves a head by the requests in flight.
* `Booked.spaced` — a piece of a run keeps the loads in flight spaced.
* `gathered_of_genuine` — a turn gathers all that can share the access.
* `loads_never_redundant` — coalescing is complete.

## References

`SPEC_FULL.md`, section 8, correctness of time coalescing: a load issues no
request while one for its line is outstanding.
-/

namespace MemPort

/-! ### How heads are served -/

/-- The request that a turn served a head with. -/
def Turn.request? : Turn → Option Coalesced
  | folded _ _ request | sent _ _ request => some request
  | _ => none

/-- A load goes out where every load of its line in flight has a store of the
line behind it.  It is folded into one in flight that no store of the line is
behind, and the oldest such. -/
def Books.Routes (b : Books) : Event → Prop
  | .turned _ (.ok (.sent _ _ request)) =>
      b.config.enableCoalescing = true → request.cmd = .read →
      ∀ j load, b.outstanding.get? j = some load → load.Joins request →
      ∃ k store, b.outstanding.get? k = some store ∧ j < k ∧ store.Blocks request
  | .turned _ (.ok (.folded _ id request)) =>
      b.config.enableCoalescing = true ∧ request.cmd = .read ∧
      (∃ pending, b.outstanding.get? id = some pending ∧ pending.Joins request) ∧
      (∀ k store, b.outstanding.get? k = some store → store.Blocks request → k < id) ∧
      ∀ j load, b.outstanding.get? j = some load → load.Joins request → j < id →
      ∃ k store, b.outstanding.get? k = some store ∧ j < k ∧ store.Blocks request
  | _ => True

namespace Assembly

variable {σ : Type} [Requestors σ] [Backend σ]

theorem request_offer {m m' : Assembly σ} {now granted : Nat} {request request' : Coalesced}
    {turn : Turn} (h : m.offer now granted request = .ok turn m')
    (hturn : turn.request? = some request') :
    request' = request ∧ ∃ sent, turn = .sent granted sent request := by
  obtain ⟨sent, answer, m₁, -, -, -, ⟨-, hcommit⟩ | ⟨-, rfl, -⟩⟩ := offer_eq_ok h
  · obtain ⟨rfl, -⟩ := commit_eq_ok hcommit
    cases hturn
    exact ⟨rfl, sent, rfl⟩
  · cases hturn

theorem request_foldOrOffer {m m' : Assembly σ} {now granted : Nat}
    {request request' : Coalesced} {turn : Turn}
    (h : m.foldOrOffer now granted request = .ok turn m')
    (hturn : turn.request? = some request') : request' = request := by
  rcases foldOrOffer_eq_ok h with ⟨id, folded, a, -, rfl, -⟩ | hoffer
  · cases hturn
    rfl
  · exact (request_offer hoffer hturn).1

/-- A head is served alone, and by a request of its own, or with all that was
gathered for it. -/
theorem request_serve {m m' : Assembly σ} {now granted : Nat} {ready : List Bool}
    {head : Transaction} {request : Coalesced} {turn : Turn}
    (h : m.serve now granted ready head = .ok turn m') (hturn : turn.request? = some request) :
    request.first = ⟨granted, head⟩ ∧
      ((m.allocator.config.enableCoalescing = true ∧ head.cmd = .read ∧
        m.allocator.gather now granted (Allocator.readyPorts ready)
          (.ofTransaction granted head m.allocator.config.lineSize) = .ok request) ∨
        ¬ (m.allocator.config.enableCoalescing = true ∧ head.cmd = .read) ∧
          ∃ sent, turn = .sent granted sent request) := by
  rcases serve_eq_ok h with ⟨hon, gathered, m₁, hgathered, -, -, hserved⟩ | ⟨hoff, hoffer⟩
  · rw [Bool.and_eq_true, Command.isCoalescable_iff] at hon
    obtain rfl := request_foldOrOffer hserved hturn
    exact ⟨first_gather hgathered, .inl ⟨hon.1, hon.2, hgathered⟩⟩
  · rw [ne_eq, Bool.and_eq_true, Command.isCoalescable_iff] at hoff
    obtain ⟨rfl, hsent⟩ := request_offer hoffer hturn
    exact ⟨rfl, .inr ⟨hoff, hsent⟩⟩

/-- **A turn serves a head by a request of its own, or with all that is gathered
for it.** -/
theorem request_issueTurn {m m' : Assembly σ} {now : Nat} {request : Coalesced} {turn : Turn}
    (h : m.issueTurn now = .ok turn m') (hturn : turn.request? = some request) :
    ∃ granted head, request.first = ⟨granted, head⟩ ∧
      ((m.allocator.config.enableCoalescing = true ∧ head.cmd = .read ∧
        m.allocator.gather now granted (Allocator.readyPorts (m.allocator.readyMask now))
          (.ofTransaction granted head m.allocator.config.lineSize) = .ok request) ∨
        ¬ (m.allocator.config.enableCoalescing = true ∧ head.cmd = .read) ∧
          ∃ sent, turn = .sent granted sent request) := by
  obtain ⟨rfl, -⟩ | ⟨granted, head, m₁, hchoose, hhead,
      ⟨owner, -, rfl, -⟩ | ⟨c, hfree, hcheck, hserved⟩⟩ :=
    issueTurn_eq_ok h
  · cases hturn
  · cases hturn
  · have hgrant := Allocator.grant?_eq_some_iff.mpr ⟨hchoose, hhead⟩
    have hcleared := cleared_checkLock hgrant (allocator_note m _) (surroundings_note m _) hcheck
      (LockCheck.isBlocked_eq_false hfree)
    obtain ⟨hfirst, hserved⟩ := request_serve hserved hturn
    refine ⟨granted, head, hfirst, ?_⟩
    rw [hcleared.config_eq] at hserved
    rcases hserved with hgathered | halone
    · refine .inl ⟨hgathered.1, hgathered.2.1, ?_⟩
      rw [← hgathered.2.2]
      -- the check of the lock changes no head that is ready
      refine Allocator.gather_congr hcleared.config_eq.symm fun port hport => ?_
      obtain ⟨txn, htxn⟩ := Allocator.mem_readyPorts.mp hport
      rw [htxn]
      exact (hcleared.headAt? port txn htxn).symm
    · exact .inr halone

end Assembly

section Genuine

variable {σ : Type} [Requestors σ] [Backend σ]

/-- **Every turn serves a head by the requests in flight.** -/
theorem routes_of_genuine {x : Moment σ} (hx : x.Genuine) (hok : x.event.isBroken = false) :
    x.before.allocator.books.Routes x.event := by
  have heffect := effect_of_genuine hx hok
  cases hx with
  | turned m now hbusy =>
    simp only at heffect ⊢
    generalize hturn : m.issueTurn now = outcome at heffect ⊢
    cases heffect with
    | turned _ hok h =>
      generalize houtcome : outcome.result = result at h ⊢
      cases h with
      | @served m₁ _ granted head request _ hcleared hformed hserved =>
        have hconfig := hcleared.config_eq
        have hout := hcleared.outstanding_eq
        cases hserved with
        | broken a => exact absurd houtcome (hok a)
        | duplicate => trivial
        | refused => trivial
        | @sent _ sent hsends htarget =>
          intro hon hread j load hj hjoins
          have hnone := htarget (by rw [hconfig]; exact hon) hread
          change m.allocator.outstanding.get? j = some load at hj
          rw [← hout] at hj
          obtain ⟨k, store, hk, hjk, hblocks⟩ :=
            Allocator.foldTarget?_eq_none hread hnone hj hjoins
          rw [hout] at hk
          exact ⟨k, store, hk, hjk, hblocks⟩
        | @folded _ id hfolds hread =>
          obtain ⟨hjoined, hlast, hfirst⟩ := Allocator.foldTarget?_eq_some hread hfolds.target
          rw [hout] at hjoined hlast hfirst
          refine ⟨?_, hread, hjoined, hlast, hfirst⟩
          -- only where heads are shared is anything folded
          cases outcome with
          | error e m' => cases houtcome
          | ok turn m' =>
            cases houtcome
            obtain ⟨_, _, _, hgathered | ⟨_, sent, hsent⟩⟩ :=
              Assembly.request_issueTurn hturn rfl
            · exact hgathered.1
            · cases hsent
      | _ => trivial
  | _ => trivial

end Genuine

/-! ### Loads in flight are spaced -/

/-- Two loads of a line in flight have a store of the line in flight between
them. -/
def Books.Spaced (b : Books) : Prop :=
  ∀ i j first second, b.outstanding.get? i = some first → b.outstanding.get? j = some second →
    i < j → first.cmd = .read → second.cmd = .read → first.line = second.line →
    ∃ k store, b.outstanding.get? k = some store ∧ i < k ∧ k < j ∧
    store.line = first.line ∧
      store.cmd.isExclusive = true

theorem Books.spaced_empty (config : AllocatorConfig) : (Books.empty config).Spaced := by
  intro i j first second hi
  cases hi

/-- **A piece that drains at most the oldest request** keeps the loads in flight
spaced. -/
theorem Booked.spaced {b b' : Books} {e : Event} {answered : Nat} (h : Booked b e b')
    (hroutes : b.Routes e) (hon : b.config.enableCoalescing = true)
    (hconsecutive : b.Consecutive answered)
    (hdrained : ∀ response ∈ e.drained, response.id = answered) (hb : b.Spaced) :
    b'.Spaced := by
  cases h with
  | accepted => exact hb
  | quiet hquiet => exact hb
  | @sent queued now granted request hfresh hqueued huniform =>
    intro i j first second hi hj hlt hfirst hsecond hline
    have hne : b.nextId ≠ i := by
      rintro rfl
      simp only [AscMap.get?_insert] at hj
      split at hj
      · omega
      · exact absurd (hconsecutive.of_get? hj).2 (by omega)
    simp only [AscMap.get?_insert, if_neg hne] at hi hj ⊢
    split at hj
    · -- the load that goes out finds every load of its line with a store behind it
      rename_i heq
      subst heq
      cases hj
      obtain ⟨k, store, hk, hik, hstore⟩ := hroutes hon hsecond i first hi
        ⟨hline, hfirst.trans hsecond.symm⟩
      have hkn := (hconsecutive.of_get? hk).2
      refine ⟨k, store, ?_, hik, hkn, hstore.1.trans hline.symm, hstore.2⟩
      rw [if_neg (Nat.ne_of_gt hkn)]
      exact hk
    · obtain ⟨k, store, hk, hik, hkj, hstore⟩ :=
        hb i j first second hi hj hlt hfirst hsecond hline
      have hkn := (hconsecutive.of_get? hk).2
      refine ⟨k, store, ?_, hik, hkj, hstore⟩
      rw [if_neg (Nat.ne_of_gt hkn)]
      exact hk
  | @folded queued now granted id request pending merged hpending hmerged hqueued huniform =>
    obtain ⟨-, hcmd, hline⟩ := Coalesced.origins_absorb? hmerged
    -- what is in flight keeps its line and what it does
    have hkeeps : ∀ k c, (b.outstanding.insert id merged).get? k = some c →
        ∃ c', b.outstanding.get? k = some c' ∧ c'.line = c.line ∧ c'.cmd = c.cmd := by
      intro k c hk
      simp only [AscMap.get?_insert] at hk
      split at hk
      · rename_i heq
        cases hk
        exact ⟨pending, heq ▸ hpending, hline.symm, hcmd.symm⟩
      · exact ⟨c, hk, rfl, rfl⟩
    intro i j first second hi hj hlt hfirst hsecond hlines
    obtain ⟨first', hi', hline₁, hcmd₁⟩ := hkeeps i first hi
    obtain ⟨second', hj', hline₂, hcmd₂⟩ := hkeeps j second hj
    obtain ⟨k, store, hk, hik, hkj, hstore⟩ := hb i j first' second' hi' hj' hlt
      (hcmd₁.trans hfirst) (hcmd₂.trans hsecond) (hline₁.trans (hlines.trans hline₂.symm))
    have hne : id ≠ k := by
      rintro rfl
      rw [hpending] at hk
      cases hk
      rw [(Coalesced.loads_of_absorb? hmerged).1] at hstore
      cases hstore.2
    refine ⟨k, store, ?_, hik, hkj, hstore.1.trans hline₁, hstore.2⟩
    simp only [AscMap.get?_insert, if_neg hne]
    exact hk
  | @answered now response result =>
    have hid := hdrained response (List.mem_singleton_self response)
    intro i j first second hi hj hlt hfirst hsecond hline
    simp only [AscMap.get?_erase] at hi hj ⊢
    split at hi
    · cases hi
    · split at hj
      · cases hj
      · -- a store between two loads is not the oldest request
        obtain ⟨k, store, hk, hik, hkj, hstore⟩ :=
          hb i j first second hi hj hlt hfirst hsecond hline
        have hle := (hconsecutive.of_get? hi).1
        refine ⟨k, store, ?_, hik, hkj, hstore⟩
        rw [if_neg (by omega)]
        exact hk

section Runs

variable {σ : Type} [Requestors σ] [Backend σ]

/-- **In a run in which the memory answers in order**, the loads in flight are
spaced. -/
theorem OrderedRun.spaced {config : AllocatorConfig} {m : Assembly (Recorded σ)}
    {ms : List (Moment σ)} (h : OrderedRun config m ms) (hon : config.enableCoalescing = true) :
    (endOf m ms).allocator.books.Spaced := by
  refine h.induct (P := fun _ m' => m'.allocator.books.Spaced) ?_ ?_
  · rw [h.books]
    exact Books.spaced_empty config
  · intro pre x hx ih
    obtain ⟨hbefore, hgenuine, heffect⟩ := hx.effect
    have hconfig : x.before.allocator.config = config := by
      rw [hbefore]
      exact hx.before.config_eq
    have hconsecutive := hx.before.consecutive
    rw [← hbefore] at hconsecutive
    refine heffect.booked.spaced (routes_of_genuine hgenuine (hx.unbroken x (by simp))) ?_
      hconsecutive (fun response hresponse => (hx.drains_oldest hresponse).1) ih
    rw [← hon, ← hconfig]
    rfl

end Runs

/-! ### A turn takes all that can share the access -/

namespace Allocator

variable {a : Allocator} {now granted : Nat}

/-- Gathering takes no transaction away. -/
theorem mem_gather {ports : List Nat} {request request' : Coalesced}
    (h : a.gather now granted ports request = .ok request') {o : Origin}
    (ho : o ∈ request.origins) : o ∈ request'.origins := by
  induction ports generalizing request with
  | nil =>
    cases h
    exact ho
  | cons port rest ih =>
    unfold gather at h
    split at h
    · exact ih h ho
    · split at h
      · split at h
        · cases h
        · apply ih h
          rw [Coalesced.origins_add]
          exact List.mem_append_left _ ho
      · exact ih h ho

/-- **Gathering takes every visible head that can share the access.** -/
theorem gathers {ports : List Nat} {request request' : Coalesced}
    (h : a.gather now granted ports request = .ok request') {port : Nat} {txn : Transaction}
    (hport : port ∈ ports) (hne : port ≠ granted) (hhead : a.headAt? now port = some txn)
    (hjoin : request.canJoin txn a.config.lineSize = true) :
    ⟨port, txn⟩ ∈ request'.origins := by
  induction ports generalizing request with
  | nil => cases hport
  | cons p rest ih =>
    unfold gather at h
    rcases List.mem_cons.mp hport with rfl | hport
    · -- the port is asked, and its head joins
      rw [if_neg hne, hhead] at h
      simp only [hjoin, if_true] at h
      split at h
      · cases h
      · apply mem_gather h
        simp
    · split at h
      · exact ih h hport hjoin
      · split at h
        · split at h
          · cases h
          · exact ih h hport hjoin
        · exact ih h hport hjoin

end Allocator

section Genuine

variable {σ : Type} [Requestors σ] [Backend σ]

/-- The transactions that leave their queues in a turn are those of one request,
and share its number. -/
theorem Event.request_of_served {now : Nat} {result : Except Failure Turn} {id : Nat} {o : Origin}
    (h : (id, o) ∈ (Event.turned now result).served) :
    ∃ turn request, result = .ok turn ∧ turn.request? = some request ∧
    o ∈ request.origins ∧
      (Event.turned now result).served = request.origins.map fun o => (id, o) := by
  cases result with
  | error e => cases h
  | ok turn =>
    cases turn with
    | sent granted sent request =>
      obtain ⟨o', ho, heq⟩ := List.mem_map.mp h
      cases heq
      exact ⟨_, request, rfl, rfl, ho, rfl⟩
    | folded granted id' request =>
      obtain ⟨o', ho, heq⟩ := List.mem_map.mp h
      cases heq
      exact ⟨_, request, rfl, rfl, ho, rfl⟩
    | _ => cases h

/-- A request that serves heads is formed from visible ones. -/
theorem Assembly.Turned.formed {m m' : Assembly (Recorded σ)} {now : Nat} {turn : Turn}
    (h : m.Turned now (.ok turn) m') {request : Coalesced} (hturn : turn.request? = some request) :
    ∃ granted head, request.FormedFrom m.allocator now granted head := by
  generalize hresult : (Except.ok turn : Except Failure Turn) = result at h
  cases h with
  | served _ hformed hserved =>
    cases hserved with
    | sent _ _ =>
      cases hresult
      cases hturn
      exact ⟨_, _, hformed⟩
    | folded _ _ =>
      cases hresult
      cases hturn
      exact ⟨_, _, hformed⟩
    | refused _ =>
      cases hresult
      cases hturn
    | _ => cases hresult
  | spilled _ _ _ _ => cases hresult
  | _ =>
    cases hresult
    cases hturn

/-- **A turn that serves a load serves every visible load of its line.** -/
theorem gathered_of_genuine {x : Moment σ} (hx : x.Genuine) (hok : x.event.isBroken = false)
    (hon : x.before.allocator.config.enableCoalescing = true) {now : Nat}
    {result : Except Failure Turn} (hturn : x.event = .turned now result) {id : Nat} {o : Origin}
    (hserved : (id, o) ∈ x.event.served) (hread : o.txn.cmd = .read) {port : Nat}
    {txn : Transaction} (hhead : x.before.allocator.headAt? now port = some txn)
    (htxn : txn.cmd = .read) (hline : x.before.allocator.config.lineOf txn.addr =
      x.before.allocator.config.lineOf o.txn.addr) :
    (id, ⟨port, txn⟩) ∈ x.event.served ∧
      x.before.allocator.queuedOn port = txn :: x.after.allocator.queuedOn port := by
  have heffect := effect_of_genuine hx hok
  have hqueued := heffect.booked.queued_eq port
  cases hx with
  | turned m now' hbusy =>
    cases hturn
    simp only at heffect hserved hqueued hhead hline hon ⊢
    obtain ⟨turn, request, hresult, hrequest, ho, hall⟩ := Event.request_of_served hserved
    cases heffect with
    | turned _ hok h =>
      rw [hresult] at h
      obtain ⟨granted, head, hformed⟩ := h.formed hrequest
      -- the request is for the line, and the turn gathered for it
      obtain ⟨holine, hocmd⟩ := hformed.uniform o ho
      have hissue : m.issueTurn now = .ok turn (m.issueTurn now).left := by
        generalize m.issueTurn now = outcome at hresult
        cases outcome with
        | error e m' => cases hresult
        | ok turn' m' =>
          cases hresult
          rfl
      obtain ⟨granted', head', hfirst, hgathered⟩ := Assembly.request_issueTurn hissue hrequest
      rw [hformed.first] at hfirst
      cases hfirst
      have hheadcmd : head.cmd = .read := by
        rw [← hformed.cmd_eq, ← hocmd]
        exact hread
      have hgather := (hgathered.resolve_right fun halone => halone.1 ⟨hon, hheadcmd⟩).2.2
      have hmem : ⟨port, txn⟩ ∈ request.origins := by
        by_cases hport : port = granted
        · have hvisible := hformed.visible request.first List.mem_cons_self
          rw [hformed.first, ← hport, hhead] at hvisible
          cases hvisible
          rw [hport, ← hformed.first]
          exact List.mem_cons_self
        · have hheadline : m.allocator.config.lineOf txn.addr =
              m.allocator.config.lineOf head.addr := by
            rw [hline, ← hformed.line, ← holine]
            rfl
          refine Allocator.gathers hgather (Allocator.mem_readyPorts.mpr ⟨_, hhead⟩)
            hport hhead ?_
          unfold Coalesced.canJoin
          simp only [Bool.and_eq_true, beq_iff_eq, Command.isCoalescable_iff]
          exact ⟨⟨hheadcmd, htxn.trans hheadcmd.symm⟩, hheadline⟩
      constructor
      · rw [hall]
        exact List.mem_map_of_mem hmem
      · rw [hall, map_snd_pair, Origin.txnsOf_of_nodup hformed.nodup hmem] at hqueued
        change m.allocator.books.queued port =
          txn :: (m.issueTurn now).left.allocator.books.queued port
        simpa [Event.accepted] using hqueued
  | _ => cases hturn

end Genuine

section Runs

variable {σ : Type} [Requestors σ] [Backend σ]

/-- **Coalescing is complete.**  Where the memory answers in order, two loads of
one line are in flight together only with a store of the line in flight whose
number lies between theirs.  And a turn in which a load leaves its queue serves,
by the same request, every load of the line that was visible when it began: each
leaves its queue in that turn. -/
theorem loads_never_redundant {config : AllocatorConfig} {a : Allocator}
    (hnew : Allocator.new config = .ok a) (hon : config.enableCoalescing = true) (s : σ)
    (j : Journal) {calls : List (Call σ)} {ms : List (Moment σ)}
    (hms : ms <+: run calls ⟨a, .start s, j⟩) (hok : Unbroken ms) (horder : InOrder ms) :
    (∀ i k first second,
      (endOf ⟨a, .start s, j⟩ ms).allocator.outstanding.get? i = some first →
      (endOf ⟨a, .start s, j⟩ ms).allocator.outstanding.get? k = some second →
      i < k → first.cmd = .read → second.cmd = .read → first.line = second.line →
      ∃ n store, (endOf ⟨a, .start s, j⟩ ms).allocator.outstanding.get? n = some store ∧
        i < n ∧ n < k ∧ store.line = first.line ∧
        (store.cmd = .write ∨ store.cmd = .storeCond ∨ store.cmd = .swap)) ∧
    ∀ x ∈ ms, ∀ now result, x.event = .turned now result →
      ∀ id o, (id, o) ∈ x.event.served → o.txn.cmd = .read →
      ∀ port txn, x.before.allocator.headAt? now port = some txn → txn.cmd = .read →
      config.lineOf txn.addr = config.lineOf o.txn.addr →
      (id, ⟨port, txn⟩) ∈ x.event.served ∧
        x.before.allocator.queuedOn port = txn :: x.after.allocator.queuedOn port := by
  have hrun := orderedRun_of_run hnew s j hms hok horder
  constructor
  · intro i k first second hi hk hlt hfirst hsecond hline
    obtain ⟨n, store, hn, hin, hnk, hstore, hexclusive⟩ :=
      hrun.spaced hon i k first second hi hk hlt hfirst hsecond hline
    refine ⟨n, store, hn, hin, hnk, hstore, ?_⟩
    cases hcmd : store.cmd <;> simp [hcmd, Command.isExclusive] at hexclusive ⊢
  · intro x hx now result hturn id o hserved hread port txn hhead htxn hline
    obtain ⟨pre, post, rfl⟩ := List.append_of_mem hx
    obtain ⟨hbefore, hgenuine, -⟩ := hrun.effect
    have hconfig : x.before.allocator.config = config := by
      rw [hbefore]
      exact hrun.before.config_eq
    rw [← hconfig] at hon hline
    exact gathered_of_genuine hgenuine (hok x hx) hon hturn hserved hread hhead htxn hline

/-- A line is loaded, stored to and loaded again, the last time by two lanes at
once.  A load of another line before all that was answered. -/
def rereadLine : List (Call (Lanes × EchoMemory)) :=
  [.submit 0 1 (.load .read 1 0 4), .tick 0, .submit 1 0 (.load .read 2 64 4), .tick 1,
    .submit 2 1 (.store .write 3 64 [1, 2, 3, 4]), .tick 2,
    .receive 3 ⟨0, List.replicate 64 0, true⟩, .submit 3 0 (.load .read 4 64 4),
    .submit 3 2 (.load .read 5 72 4), .tick 3]

/-- Where the three lanes begin. -/
def rereadLineStart : Assembly (Recorded (Lanes × EchoMemory)) :=
  ⟨.ofConfig { numPorts := 3, requestLatency := 0, enableCoalescing := true },
    .start (Lanes.plain 3, EchoMemory.new false), .start .warn⟩

/-- The second load of the line is in flight with the first, behind the store,
and stands for both lanes that asked for it. -/
theorem loads_never_redundant_rereadLine :
    (∃ n store,
      (endOf rereadLineStart (run rereadLine rereadLineStart)).allocator.outstanding.get? n =
        some store ∧
      1 < n ∧ n < 3 ∧ store.line = 64 ∧
      (store.cmd = .write ∨ store.cmd = .storeCond ∨ store.cmd = .swap)) ∧
    ∃ x ∈ run rereadLine rereadLineStart, (3, ⟨2, .load .read 5 72 4⟩) ∈
      x.event.served ∧
      (3, ⟨0, .load .read 4 64 4⟩) ∈ x.event.served ∧
      x.before.allocator.queuedOn 0 = .load .read 4 64 4 :: x.after.allocator.queuedOn 0 := by
  have hnew : Allocator.new { numPorts := 3, requestLatency := 0, enableCoalescing := true } =
      .ok rereadLineStart.allocator := by rfl
  obtain ⟨hspaced, hgathered⟩ := loads_never_redundant hnew rfl
    rereadLineStart.surroundings.inner (.start .warn) List.prefix_rfl
    (by decide +kernel : Unbroken (run rereadLine rereadLineStart))
    (by decide +kernel : InOrder (run rereadLine rereadLineStart))
  constructor
  · have hfirst : (endOf rereadLineStart
        (run rereadLine rereadLineStart)).allocator.outstanding.get? 1 =
        some ⟨64, ⟨0, .load .read 2 64 4⟩, []⟩ := by decide +kernel
    have hsecond : (endOf rereadLineStart
        (run rereadLine rereadLineStart)).allocator.outstanding.get? 3 =
        some ⟨64, ⟨2, .load .read 5 72 4⟩, [⟨0, .load .read 4 64 4⟩]⟩ := by
          decide +kernel
    exact hspaced 1 3 _ _ hfirst hsecond (by decide) rfl rfl rfl
  · obtain ⟨x, hx⟩ : ∃ x, (run rereadLine rereadLineStart)[18]? = some x :=
      Option.isSome_iff_exists.mp (by decide +kernel)
    have hturn : ∀ x ∈ (run rereadLine rereadLineStart)[18]?, x.event = .turned 3 (.ok (.sent 2
        ⟨3, 2, .read, 64, 64, []⟩
        ⟨64, ⟨2, .load .read 5 72 4⟩, [⟨0, .load .read 4 64 4⟩]⟩)) := by decide +kernel
    have hserved : ∀ x ∈ (run rereadLine rereadLineStart)[18]?,
        (3, ⟨2, .load .read 5 72 4⟩) ∈ x.event.served := by decide +kernel
    have hhead : ∀ x ∈ (run rereadLine rereadLineStart)[18]?,
        x.before.allocator.headAt? 3 0 = some (.load .read 4 64 4) := by decide +kernel
    refine ⟨x, List.mem_of_getElem? hx, hserved x hx, ?_⟩
    exact hgathered x (List.mem_of_getElem? hx) 3 _ (hturn x hx) 3 _ (hserved x hx) rfl 0 _
      (hhead x hx) rfl (by decide)

end Runs

end MemPort
