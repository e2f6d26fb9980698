import MemPort.Bench.EchoMemory
import MemPort.Bench.Lanes
import MemPort.Proofs.Bookkeeping

/-!
# A load-locked excludes other ports

A load-locked that the memory accepts locks its address for its port.  While the
lock is young, the linked accesses of other ports to that address are parked; a
store to the address, or the owner's store-conditional, ends the lock.

The lock ends in the check that precedes the offer of the store, so it is gone
even if the memory then refuses the store, or if the store turns out to spill
past its line.  Until the store is granted again, a linked access of another
port may pass it.  Exclusion therefore holds up to the next store that is
*granted*, and not up to the next store that the memory accepts.

## Main definitions

* `Moment.Releases` — a turn that grants a store to an address.

## Main results

* `lock_keeps` — one piece of a run keeps a young lock, unless it grants such
  a store.
* `lock_exclusion` — exclusion over whole runs.
* `refused_store_lets_pass` — a refused store lets a linked access of another
  port pass.

## References

`SPEC_FULL.md`, section 8, LL/SC mutual exclusion; section 4.3.
-/

namespace MemPort

/-! ### Operations on the table of locks -/

namespace LockTable

variable {t t' : LockTable} {addr addr' port now : Nat} {lock : Lock}

/-- A check keeps a live lock, unless it is one for a store to the address. -/
theorem get?_of_check {cmd : Command} {c : LockCheck} (hlock : t.locks.get? addr = some lock)
    (hlive : t.isExpired lock now = false) (h : (t.check addr' port now cmd).value = (c, t')) :
    t'.locks.get? addr = some lock ∨
    (addr' = addr ∧ cmd.isExclusive = true ∧ c.isBlocked = false) := by
  cases checked_of_check h with
  | released hother _ hends =>
    by_cases haddr : addr' = addr
    · -- the lock that was dropped is the one at hand, and it is alive
      subst haddr
      rw [hother] at hlock
      cases hlock
      rw [hlive] at hends
      exact Or.inr ⟨rfl, hends.resolve_left nofun, rfl⟩
    · left
      rw [AscMap.get?_erase, if_neg haddr]
      exact hlock
  | _ => exact Or.inl hlock

/-- A check blocks the linked accesses of other ports to a locked address. -/
theorem isBlocked_of_check {cmd : Command} {c : LockCheck}
    (hlock : t.locks.get? addr = some lock) (hlive : t.isExpired lock now = false)
    (hlinked : cmd.isLinked = true) (hother : lock.owner ≠ port)
    (h : (t.check addr port now cmd).value = (c, t')) : c.isBlocked = true := by
  cases checked_of_check h with
  | vacant hnone =>
    rw [hlock] at hnone
    cases hnone
  | blocked => rfl
  | released hlock' hown _ =>
    rw [hlock] at hlock'
    cases hlock'
    exact absurd (hown hlinked hlive) hother
  | passed hlock' hown _ _ =>
    rw [hlock] at hlock'
    cases hlock'
    exact absurd (hown hlinked) hother

theorem get?_of_acquire (hlock : t.locks.get? addr = some lock)
    (hlive : t.isExpired lock now = false) (h : t.acquire addr' port now = .ok t') :
    t'.locks.get? addr = some lock := by
  cases acquired_of_acquire h with
  | locked hfree =>
    -- the new lock is on another address, where no live lock stands
    have haddr : addr' ≠ addr := by
      rintro rfl
      rw [hfree lock hlock] at hlive
      cases hlive
    rw [AscMap.get?_insert, if_neg haddr]
    exact hlock
  | kept => exact hlock

theorem get?_of_lockFor {sent : BackendRequest} (hlock : t.locks.get? addr = some lock)
    (hlive : t.isExpired lock now = false) (h : t.lockFor port now sent = .ok t') :
    t'.locks.get? addr = some lock := by
  unfold lockFor at h
  split at h
  · exact get?_of_acquire hlock hlive h
  · cases h
    exact hlock

theorem get?_of_expire (hlock : t.locks.get? addr = some lock)
    (hlive : t.isExpired lock now = false) : (t.expire now).2.locks.get? addr = some lock := by
  rw [← AscMap.mem_entries_iff] at hlock ⊢
  refine List.mem_filter.mpr ⟨hlock, ?_⟩
  unfold isExpired at hlive
  simp only [decide_eq_false_iff_not, decide_eq_true_eq] at hlive ⊢
  omega

/-! The lifetime of locks never changes. -/

theorem timeout_of_acquire (h : t.acquire addr port now = .ok t') : t'.timeout = t.timeout := by
  cases acquired_of_acquire h <;> rfl

theorem timeout_lockFor {sent : BackendRequest} (h : t.lockFor port now sent = .ok t') :
    t'.timeout = t.timeout := by
  unfold lockFor at h
  split at h
  · exact timeout_of_acquire h
  · cases h
    rfl

theorem isExpired_of_timeout (h : t'.timeout = t.timeout) :
    t'.isExpired lock now = t.isExpired lock now := by
  unfold isExpired
  rw [h]

end LockTable

/-! ### Locks over a piece of a run -/

section Genuine

variable {σ : Type} [Requestors σ] [Backend σ]

/-- A turn that grants a store to an address.  The memory accepts it or refuses
it, or the store spills past its line and is not offered at all. -/
inductive Moment.Releases (z : Moment σ) (addr : Nat) : Prop
  /-- The memory accepted the store. -/
  | accepted {now port : Nat} {sent : BackendRequest} {request : Coalesced}
      (h : z.event = .turned now (.ok (.sent port sent request)))
      (hcmd : sent.cmd.isExclusive = true) (haddr : sent.addr = addr)
  /-- The memory refused the store. -/
  | refused {now port : Nat} {sent : BackendRequest}
      (h : z.event = .turned now (.ok (.refused port sent)))
      (hcmd : sent.cmd.isExclusive = true) (haddr : sent.addr = addr)
  /-- The store spills past its line. -/
  | spilled {now port reach lineSize : Nat} {head : Transaction}
      (h : z.event = .turned now (.error (.invariant (.oversizedAccess port addr reach lineSize))))
      (hgrant : z.before.allocator.grant? now = some (port, head))
      (hcmd : head.cmd.isExclusive = true) (haddr : head.addr = addr)

omit [Requestors σ] [Backend σ] in
/-- A request formed for a store goes to the memory as that store. -/
theorem store_toBackend {request : Coalesced} {a : Allocator} {now granted id lineSize : Nat}
    {head : Transaction} (h : request.FormedFrom a now granted head)
    (hcmd : head.cmd.isExclusive = true) :
    (request.toBackend id lineSize).cmd.isExclusive = true ∧
      (request.toBackend id lineSize).addr = head.addr := by
  have hnot : request.cmd ≠ .read := by
    rw [h.cmd_eq]
    rintro hread
    rw [hread] at hcmd
    cases hcmd
  rw [Coalesced.cmd_toBackend, h.cmd_eq, Coalesced.addr_toBackend _ _ hnot, h.first]
  exact ⟨hcmd, rfl⟩

/-- **One turn keeps a live lock**, unless it grants a store to the locked
address. -/
theorem lock_turned {m m' : Assembly (Recorded σ)} {now addr : Nat}
    {result : Except Failure Turn} {lock : Lock} (h : Assembly.Turned m now result m')
    (hok : ∀ a, result ≠ .error (.assertion a)) (hnumbered : m.allocator.books.Numbered)
    (hlock : m.allocator.locks.locks.get? addr = some lock)
    (hlive : m.allocator.locks.isExpired lock now = false) :
    m'.allocator.locks.locks.get? addr = some lock ∨
      Moment.Releases ⟨m, .turned now result, m'⟩ addr := by
  cases h with
  | idle _ => exact Or.inl hlock
  | parked _ _ ha _ _ =>
    obtain ⟨p, stats, -, ha⟩ := ha
    rw [ha]
    exact Or.inl hlock
  -- the check may drop the lock before the line of the access is looked at
  | spilled hcleared _ hspill hwhich =>
    obtain ⟨c, table, ports, stats, hcheck, hc, -, ha⟩ := hcleared.allocator
    rcases LockTable.get?_of_check hlock hlive hcheck with hkept | ⟨haddr, hex, -⟩
    · rw [ha]
      exact Or.inl hkept
    · right
      rcases hwhich with ⟨rfl, rfl⟩ | hread
      · unfold checkLineFit at hspill
        simp only at hspill
        split at hspill
        · cases hspill
          exact .spilled (by rw [haddr]) hcleared.grant hex haddr
        · cases hspill
      · rw [hread] at hex
        cases hex
  | served hcleared hformed hserved =>
    obtain ⟨c, table, ports, stats, hcheck, hc, -, ha⟩ := hcleared.allocator
    have hlive' : table.isExpired lock now = false := by
      rw [LockTable.isExpired_of_timeout (LockTable.timeout_of_check hcheck)]
      exact hlive
    cases hserved with
    | broken a => exact absurd rfl (hok a)
    | duplicate _ _ hused =>
      have hfree : m.allocator.outstanding.contains m.allocator.nextId = false :=
        hnumbered.contains_eq
      rw [ha] at hused
      have hused : m.allocator.outstanding.contains m.allocator.nextId = true := hused
      rw [hfree] at hused
      cases hused
    -- or before an offer that is then refused
    | refused h =>
      obtain ⟨stats', ha'⟩ := h.allocator
      rcases LockTable.get?_of_check hlock hlive hcheck with hkept | ⟨haddr, hex, -⟩
      · rw [ha', ha]
        exact Or.inl hkept
      · obtain ⟨hcmd, haddr'⟩ := store_toBackend hformed hex
        exact Or.inr (.refused rfl (by rw [h.sent_eq]; exact hcmd)
          (by rw [h.sent_eq, haddr']; exact haddr))
    | sent h _ =>
      obtain ⟨ports', stats', locks, hlocks, ha'⟩ := h.allocator
      rcases LockTable.get?_of_check hlock hlive hcheck with hkept | ⟨haddr, hex, -⟩
      · rw [ha] at hlocks
        rw [ha']
        exact Or.inl (LockTable.get?_of_lockFor hkept hlive' hlocks)
      · obtain ⟨hcmd, haddr'⟩ := store_toBackend hformed hex
        exact Or.inr (.accepted rfl (by rw [h.sent_eq]; exact hcmd)
          (by rw [h.sent_eq, haddr']; exact haddr))
    -- a load drops no lock
    | folded h hread =>
      obtain ⟨pending, merged, ports', stats', -, -, ha'⟩ := h.allocator
      rcases LockTable.get?_of_check hlock hlive hcheck with hkept | ⟨-, hex, -⟩
      · rw [ha', ha]
        exact Or.inl hkept
      · rw [hformed.cmd_eq] at hread
        rw [hread] at hex
        cases hex

/-- **One piece of a run keeps a live lock**, unless it grants a store to the
locked address. -/
theorem lock_keeps {m m' : Assembly (Recorded σ)} {e : Event} {addr : Nat} {lock : Lock}
    (h : Effect m m' e) (hnumbered : m.allocator.books.Numbered)
    (hlock : m.allocator.locks.locks.get? addr = some lock)
    (hlive : ∀ now, e.now? = some now → m.allocator.locks.isExpired lock now = false) :
    m'.allocator.locks.locks.get? addr = some lock ∨ Moment.Releases ⟨m, e, m'⟩ addr := by
  by_cases hmemory : e.isFromMemory = true
  · obtain ⟨backendPort, outstanding, stats, _, ha⟩ := h.frame_fromMemory hmemory
    rw [ha]
    exact Or.inl hlock
  -- of all other events only a sweep and a turn look at locks
  cases h with
  | submitted ha _ _ =>
    obtain ⟨ports, stats, ha⟩ := ha
    rw [ha]
    exact Or.inl hlock
  | performed ha _ =>
    obtain ⟨stats, ha⟩ := ha
    rw [ha]
    exact Or.inl hlock
  | rejected h =>
    rw [h]
    exact Or.inl hlock
  | swept ha _ _ =>
    obtain ⟨ports, stats, ha⟩ := ha
    rw [ha]
    exact Or.inl (LockTable.get?_of_expire hlock (hlive _ rfl))
  | turned _ hok h => exact lock_turned h hok hnumbered hlock (hlive _ rfl)
  | checked ha _ =>
    obtain ⟨next, ha⟩ := ha
    rw [ha]
    exact Or.inl hlock
  | _ => exact absurd rfl hmemory

theorem Effect.timeout_eq {m m' : Assembly (Recorded σ)} {e : Event} (h : Effect m m' e) :
    m'.allocator.locks.timeout = m.allocator.locks.timeout := by
  by_cases hperipheral : e.isPeripheral = true
  · obtain ⟨ports, locks, stats, _, _, htimeout, ha⟩ := h.frame hperipheral
    rw [ha]
    exact htimeout
  by_cases hmemory : e.isFromMemory = true
  · obtain ⟨backendPort, outstanding, stats, _, ha⟩ := h.frame_fromMemory hmemory
    rw [ha]
  -- a turn is left that serves a head
  cases h with
  | turned _ _ h =>
    cases h with
    | served hcleared _ hserved =>
      obtain ⟨ports, table, stats, htable, ha⟩ := hcleared.frame
      cases hserved with
      | refused h =>
        obtain ⟨stats', ha'⟩ := h.allocator
        rw [ha', ha]
        exact htable
      | sent h _ =>
        -- a load-locked that goes out sets a lock
        obtain ⟨ports', stats', locks, hlocks, ha'⟩ := h.allocator
        rw [ha] at hlocks
        rw [ha']
        exact (LockTable.timeout_lockFor hlocks).trans htable
      | folded h _ =>
        obtain ⟨pending, merged, ports', stats', -, -, ha'⟩ := h.allocator
        rw [ha', ha]
        exact htable
      | _ => exact absurd rfl hperipheral
    | _ => exact absurd rfl hperipheral
  | _ => first | exact absurd rfl hperipheral | exact absurd rfl hmemory

/-! ### Locks over a run -/

/-- A live lock stays until a store to its address is granted. -/
theorem Linked.lock_keeps {m : Assembly (Recorded σ)} {ms : List (Moment σ)} {addr : Nat}
    {lock : Lock} (h : Linked m ms) (hok : Unbroken ms) (hnumbered : m.allocator.books.Numbered)
    (hlock : m.allocator.locks.locks.get? addr = some lock)
    (hlive : ∀ x ∈ ms, ∀ now, x.event.now? = some now →
      m.allocator.locks.isExpired lock now = false) :
    (endOf m ms).allocator.locks.locks.get? addr = some lock ∨ ∃ z ∈ ms, z.Releases addr := by
  -- the lifetime and the numbers are carried along with the lock
  refine (Linked.induct (P := fun pre m' => m'.allocator.books.Numbered ∧
      m'.allocator.locks.timeout = m.allocator.locks.timeout ∧
      (m'.allocator.locks.locks.get? addr = some lock ∨ ∃ z ∈ pre, z.Releases addr))
    (R := fun x => ∀ now, x.event.now? = some now →
      m.allocator.locks.isExpired lock now = false)
    ⟨hnumbered, rfl, Or.inl hlock⟩ ?_ h hok hlive).2.2
  rintro pre x ⟨hnum, htimeout, hkept⟩ hx hokx hlivex
  have heffect := effect_of_genuine hx hokx
  refine ⟨heffect.booked.numbered hnum, heffect.timeout_eq.trans htimeout, ?_⟩
  rcases hkept with hkept | ⟨z, hz, hrel⟩
  · have hstep := MemPort.lock_keeps heffect hnum hkept fun now hnow => by
      rw [LockTable.isExpired_of_timeout htimeout]
      exact hlivex now hnow
    exact hstep.imp_right fun hrel => ⟨x, List.mem_append_right _ List.mem_cons_self, hrel⟩
  · exact Or.inr ⟨z, List.mem_append_left _ hz, hrel⟩

theorem Linked.timeout_eq {m : Assembly (Recorded σ)} {ms : List (Moment σ)} (h : Linked m ms)
    (hok : Unbroken ms) : (endOf m ms).allocator.locks.timeout = m.allocator.locks.timeout :=
  Linked.induct (P := fun _ m' => m'.allocator.locks.timeout = m.allocator.locks.timeout)
    (R := fun _ => True) rfl
    (fun _ _ hpre hx hokx _ => (effect_of_genuine hx hokx).timeout_eq.trans hpre) h hok
    fun _ _ => trivial

omit [Requestors σ] [Backend σ] in
/-- The memory accepted a load-locked of a port, which locked its address afresh. -/
structure Moment.Locks (x : Moment σ) (port now addr : Nat) : Prop where
  /-- A load-locked to the address went out. -/
  sent : ∃ sent request, x.event = .turned now (.ok (.sent port sent request)) ∧
    sent.cmd = .loadLocked ∧ sent.addr = addr
  /-- The lock on the address is that of the port, and new. -/
  fresh : x.after.allocator.locks.locks.get? addr = some ⟨port, now⟩

/-- The memory accepted a linked access of a port. -/
def Moment.Passes (x : Moment σ) (port now addr : Nat) : Prop :=
  ∃ sent request, x.event = .turned now (.ok (.sent port sent request)) ∧
    sent.cmd.isLinked = true ∧ sent.addr = addr

/-- A linked access that goes out has met no live lock of another port. -/
theorem not_locked_of_sent {m m' : Assembly (Recorded σ)} {now port : Nat} {sent : BackendRequest}
    {request : Coalesced} {lock : Lock}
    (h : Effect m m' (.turned now (.ok (.sent port sent request))))
    (hlinked : sent.cmd.isLinked = true) (hother : lock.owner ≠ port)
    (hlive : m.allocator.locks.isExpired lock now = false) :
    m.allocator.locks.locks.get? sent.addr ≠ some lock := by
  intro hlock
  cases h with
  | turned _ _ hturn =>
    cases hturn with
    | @served _ _ _ head _ _ hcleared hformed hserved =>
      cases hserved with
      | sent hsends _ =>
        obtain ⟨c, table, ports, stats, hcheck, hc, -⟩ := hcleared.allocator
        -- the linked access is the head that passed the check
        have hcmd : sent.cmd = head.cmd := by
          rw [hsends.sent_eq, Coalesced.cmd_toBackend, hformed.cmd_eq]
        have hnot : request.cmd ≠ .read := by
          intro hread
          rw [hcmd, ← hformed.cmd_eq, hread] at hlinked
          cases hlinked
        have haddr : sent.addr = head.addr := by
          rw [hsends.sent_eq, Coalesced.addr_toBackend _ _ hnot, hformed.first]
        rw [hcmd] at hlinked
        rw [haddr] at hlock
        rw [LockTable.isBlocked_of_check hlock hlive hlinked hother hcheck] at hc
        cases hc

/-- **A load-locked excludes other ports.**  Let the memory accept a load-locked
of port `p` at cycle `t`, which locks its address afresh.  If it accepts a
linked access of another port to that address before the lock is due to end,
then a store to exactly that address was granted in between. -/
theorem lock_exclusion {config : AllocatorConfig} {a : Allocator}
    (hnew : Allocator.new config = .ok a) (s : σ) (j : Journal) {calls : List (Call σ)}
    (hnow : calls.Pairwise fun c d => ∀ t ∈ c.now?, ∀ t' ∈ d.now?, t ≤ t')
    {pre mid rest : List (Moment σ)} {x y : Moment σ}
    (hrun : run calls ⟨a, .start s, j⟩ = pre ++ x :: (mid ++ y :: rest))
    {p q t t' addr : Nat} (hx : x.Locks p t addr) (hy : y.Passes q t' addr) (hq : q ≠ p)
    (ht' : t' < t + config.lockTimeout) : ∃ z ∈ mid, z.Releases addr := by
  have hlinks := linked_run calls ⟨a, .start s, j⟩
  have htimes := pairwise_run ⟨a, .start s, j⟩ hnow
  rw [hrun] at hlinks htimes
  obtain ⟨hpre, hokpre, hbefore, hgenx, hpost⟩ := hlinks.split_cons
  obtain ⟨hmid, hokmid, hbeforey, hgeny, -⟩ := hpost.split_cons
  obtain ⟨sent, request, hevent, -, -⟩ := hx.sent
  have hokx : x.event.isBroken = false := by rw [hevent]; rfl
  have heffect := effect_of_genuine hgenx hokx
  -- where the lock begins, the numbers are in order and the lifetime is that of the
  -- configuration
  have hnumbered : x.after.allocator.books.Numbered := by
    have hkept := hpre.kept hokpre
    rw [Allocator.books_new hnew, ← hbefore] at hkept
    exact heffect.booked.numbered fun id request hid => (hkept.accounted hid).lt
  have htimeout : x.after.allocator.locks.timeout = config.lockTimeout := by
    rw [heffect.timeout_eq, hbefore, hpre.timeout_eq hokpre, (Allocator.eq_of_new hnew).2]
    rfl
  -- from there up to the linked access the lock is alive
  have hlive : ∀ now, t ≤ now → now ≤ t' →
      x.after.allocator.locks.isExpired ⟨p, t⟩ now = false := by
    intro now hge hle
    unfold LockTable.isExpired
    rw [htimeout, decide_eq_false_iff_not]
    simp only
    omega
  obtain ⟨sent', request', hevent', hlinked, haddr⟩ := hy
  have hnowx : x.event.now? = some t := by rw [hevent]; rfl
  have hnowy : y.event.now? = some t' := by rw [hevent']; rfl
  obtain ⟨hafter, htail⟩ := List.pairwise_cons.mp (List.pairwise_append.mp htimes).2.1
  have hlivez : ∀ z ∈ mid, ∀ now, z.event.now? = some now →
      x.after.allocator.locks.isExpired ⟨p, t⟩ now = false := by
    intro z hz now hnowz
    have hge := hafter z (List.mem_append_left _ hz) t hnowx now hnowz
    have hle := (List.pairwise_append.mp htail).2.2 z hz y List.mem_cons_self now hnowz t' hnowy
    exact hlive now hge hle
  have hge : t ≤ t' :=
    hafter y (List.mem_append_right _ List.mem_cons_self) t hnowx t' hnowy
  rcases hmid.lock_keeps hokmid hnumbered hx.fresh hlivez with hlock | hreleased
  · -- the lock would have blocked the linked access
    have heffect' := effect_of_genuine hgeny (by rw [hevent']; rfl)
    rw [hevent'] at heffect'
    have hlivey : y.before.allocator.locks.isExpired ⟨p, t⟩ t' = false := by
      rw [hbeforey, LockTable.isExpired_of_timeout (hmid.timeout_eq hokmid)]
      exact hlive t' hge (Nat.le_refl _)
    refine absurd ?_ (not_locked_of_sent heffect' hlinked (Ne.symm hq) hlivey)
    rw [haddr, hbeforey]
    exact hlock
  · exact hreleased

end Genuine

/-! ### A store that is refused -/

/-- A store to a locked address is refused, and the next turn goes to a linked
access of another port. -/
def refusedStore : List (Call (Lanes × EchoMemory)) :=
  [.submit 0 0 (.load .loadLocked 1 256 4), .tick 0,
    .elapse fun s => (s.1, s.2.close), .submit 1 2 (.store .write 2 256 [1, 2, 3, 4]), .tick 1,
    .submit 1 1 (.load .loadLocked 3 256 4), .elapse fun s => (s.1, s.2.reopen), .backendRetry,
    .tick 2]

/-- Where the three lanes begin. -/
def refusedStoreStart : Assembly (Recorded (Lanes × EchoMemory)) :=
  ⟨.ofConfig { numPorts := 3, requestLatency := 0, lockTimeout := 30 },
    .start (Lanes.plain 3, EchoMemory.new false), .start .warn⟩

/-- In that run, port 0 locks the address at cycle 0, port 1 passes at cycle 2,
and no store goes out in between. -/
theorem pieces_refusedStore : ∃ pre mid rest x y,
    run refusedStore refusedStoreStart = pre ++ x :: (mid ++ y :: rest) ∧
      x.Locks 0 0 256 ∧ y.Passes 1 2 256 ∧ ∀ z ∈ mid, z.event.sent = [] := by
  obtain ⟨x, hx⟩ : ∃ x, (run refusedStore refusedStoreStart)[2]? = some x :=
    Option.isSome_iff_exists.mp (by decide +kernel)
  obtain ⟨y, hy⟩ : ∃ y, ((run refusedStore refusedStoreStart).drop 3)[10]? = some y :=
    Option.isSome_iff_exists.mp (by decide +kernel)
  have hrun := eq_of_piece hx
  rw [eq_of_piece hy] at hrun
  refine ⟨_, _, _, x, y, hrun, ⟨⟨⟨0, 0, .loadLocked, 256, 4, []⟩,
    .ofTransaction 0 (.load .loadLocked 1 256 4) 64, ?_, rfl, rfl⟩, ?_⟩,
    ⟨⟨1, 1, .loadLocked, 256, 4, []⟩, .ofTransaction 1 (.load .loadLocked 3 256 4) 64,
      ?_, rfl, rfl⟩, ?_⟩
  · have hevent : (run refusedStore refusedStoreStart)[2]?.map (·.event) = some (.turned 0
        (.ok (.sent 0 ⟨0, 0, .loadLocked, 256, 4, []⟩
          (.ofTransaction 0 (.load .loadLocked 1 256 4) 64)))) := by decide +kernel
    rw [hx] at hevent
    exact Option.some.inj hevent
  · have hlock : (run refusedStore refusedStoreStart)[2]?.bind
        (·.after.allocator.locks.locks.get? 256) = some ⟨0, 0⟩ := by decide +kernel
    rw [hx] at hlock
    exact hlock
  · have hevent : ((run refusedStore refusedStoreStart).drop 3)[10]?.map (·.event) =
        some (.turned 2
          (.ok (.sent 1 ⟨1, 1, .loadLocked, 256, 4, []⟩
            (.ofTransaction 1 (.load .loadLocked 3 256 4) 64)))) := by decide +kernel
    rw [hy] at hevent
    exact Option.some.inj hevent
  · decide +kernel

/-- The store that was refused is what let port 1 pass. -/
theorem lock_exclusion_refusedStore :
    ∃ z ∈ run refusedStore refusedStoreStart, z.Releases 256 := by
  obtain ⟨pre, mid, rest, x, y, hrun, hx, hy, -⟩ := pieces_refusedStore
  have hnew : Allocator.new { numPorts := 3, requestLatency := 0, lockTimeout := 30 } =
      .ok refusedStoreStart.allocator := by rfl
  obtain ⟨z, hz, hrel⟩ := lock_exclusion hnew (Lanes.plain 3, EchoMemory.new false)
    (.start .warn) (by decide) hrun hx hy (by decide) (by decide)
  refine ⟨z, ?_, hrel⟩
  rw [hrun]
  exact List.mem_append_right _ (List.mem_cons_of_mem _ (List.mem_append_left _ hz))

/-- **A refused store lets a linked access pass.**  A load-locked does not
exclude other ports up to the next store that the memory accepts. -/
theorem refused_store_lets_pass : ¬ ∀ (config : AllocatorConfig) (a : Allocator),
    Allocator.new config = .ok a →
    ∀ (s : Lanes × EchoMemory) (j : Journal) (calls : List (Call (Lanes × EchoMemory))),
    (calls.Pairwise fun c d => ∀ t ∈ c.now?, ∀ t' ∈ d.now?, t ≤ t') →
    ∀ (pre mid rest : List (Moment (Lanes × EchoMemory))) (x y : Moment (Lanes × EchoMemory)),
    run calls ⟨a, .start s, j⟩ = pre ++ x :: (mid ++ y :: rest) →
    ∀ p q t t' addr : Nat, x.Locks p t addr → y.Passes q t' addr → q ≠ p →
    t' < t + config.lockTimeout →
    ∃ z ∈ mid, ∃ sent ∈ z.event.sent, sent.cmd.isExclusive = true ∧ sent.addr = addr := by
  intro hclaim
  obtain ⟨pre, mid, rest, x, y, hrun, hx, hy, hnone⟩ := pieces_refusedStore
  have hnew : Allocator.new { numPorts := 3, requestLatency := 0, lockTimeout := 30 } =
      .ok refusedStoreStart.allocator := by rfl
  obtain ⟨z, hz, sent, hsent, -⟩ := hclaim _ _ hnew (Lanes.plain 3, EchoMemory.new false)
    (.start .warn) refusedStore (by decide) _ _ _ _ _ hrun _ _ _ _ _ hx hy (by decide) (by decide)
  rw [hnone z hz] at hsent
  cases hsent

end MemPort
