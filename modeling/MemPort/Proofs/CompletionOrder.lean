import MemPort.Proofs.Conservation
import MemPort.Proofs.Redundancy

/-!
# In which order a port gets its completions

The transactions of a port leave its queue in the order in which they were
accepted.  If the memory answers in order, they are also completed in that
order, as far as each is served by a request no younger than those that serve
the ones behind it.  A transaction that goes out alone is served by the youngest
request of all.  Only a load can join an older request, and there it may
overtake a transaction for another line, or a load-locked.  It cannot overtake a
store to its line, which it would not be folded past, nor another load of its
line, which would have joined the same request, or had a store behind it.

## Main definitions

* `servedOn` — the transactions of a port that left its queue, with the
  numbers of their requests.
* `completedOn` — the transactions of a port in the order of their
  completions, by their places in the order in which they were accepted.
* `AllocatorConfig.MayOvertake` — the transactions that may be completed
  before an older one.

## Main results

* `OrderedRun.completions` — an answer completes all that was ever served
  under its number.
* `OrderedRun.number_le` — younger transactions are served by younger
  requests.
* `completed_in_order` — the order of the completions of a port.

## References

`SPEC_FULL.md`, section 3: the order of a queue is that of the arrivals; section
4.5.
-/

namespace MemPort

/-! ### Transactions by their places -/

/-- The transactions of a port that left its queue, in order, with the numbers
of their requests. -/
def servedOn (port : Nat) (es : List Event) : List (Nat × Transaction) :=
  (servedIn es).filterMap fun s => if s.2.port = port then some (s.1, s.2.txn) else none

/-- The places of the entries with a number. -/
def placesOf {α : Type} (id : Nat) (xs : List (Nat × α)) : List Nat :=
  (List.range xs.length).filter fun k => xs[k]?.any fun x => x.1 == id

/-- The transactions of a port in the order of their completions.  Each is given
by its place in the order in which the port's transactions left the queue, which
is that in which they were accepted.  An answer completes the transactions that
were served under its number. -/
def completedOn (port : Nat) (es : List Event) : List Nat :=
  (drainedIn es).flatMap fun response => placesOf response.id (servedOn port es)

/-- Whether a transaction may be completed before an older one of the same port:
it is a load that is folded, and the older one is for another line, or a
load-locked. -/
def AllocatorConfig.MayOvertake (config : AllocatorConfig) (older younger : Transaction) : Prop :=
  config.enableCoalescing = true ∧ younger.cmd = .read ∧
    (config.lineOf older.addr ≠ config.lineOf younger.addr ∨ older.cmd = .loadLocked)

theorem mem_placesOf {α : Type} {id k : Nat} {xs : List (Nat × α)} :
    k ∈ placesOf id xs ↔ ∃ x, xs[k]? = some (id, x) := by
  unfold placesOf
  rw [List.mem_filter, List.mem_range]
  constructor
  · rintro ⟨hlt, hany⟩
    rw [List.getElem?_eq_getElem hlt] at hany ⊢
    simp only [Option.any_some, beq_iff_eq] at hany
    exact ⟨xs[k].2, by rw [← hany]⟩
  · rintro ⟨x, hx⟩
    refine ⟨(List.getElem?_eq_some_iff.mp hx).1, ?_⟩
    rw [hx]
    simp

/-- The entries with a number stand at their places. -/
theorem forall₂_placesOf {α : Type} (id : Nat) (xs : List (Nat × α)) :
    List.Forall₂ (fun k x => xs[k]? = some (id, x)) (placesOf id xs)
      (xs.filterMap fun x => if x.1 = id then some x.2 else none) := by
  -- from the back, for the places already found stay the same
  induction xs using List.reverseRecOn with
  | nil => exact .nil
  | append_singleton xs x ih =>
    have hold : placesOf id (xs ++ [x]) =
        placesOf id xs ++ if x.1 = id then [xs.length] else [] := by
      unfold placesOf
      rw [List.length_append, List.length_singleton, List.range_succ, List.filter_append]
      congr 1
      · refine List.filter_congr fun k hk => ?_
        rw [List.getElem?_append_left (List.mem_range.mp hk)]
      · by_cases hid : x.1 = id <;> simp [hid]
    have hkeep : List.Forall₂ (fun k y => (xs ++ [x])[k]? = some (id, y)) (placesOf id xs)
        (xs.filterMap fun x => if x.1 = id then some x.2 else none) := by
      refine ih.imp fun k y hk => ?_
      rwa [List.getElem?_append_left (List.getElem?_eq_some_iff.mp hk).1]
    rw [hold, List.filterMap_append]
    refine List.rel_append hkeep ?_
    obtain ⟨n, y⟩ := x
    by_cases hid : n = id
    · simp [hid]
    · simp [hid]

/-- The transactions of a port that left its queue, without the numbers. -/
theorem map_servedOn (port : Nat) (es : List Event) :
    (servedOn port es).map (·.2) = Origin.txnsOf port (retiredIn es) := by
  unfold servedOn Origin.txnsOf retiredIn
  rw [List.map_filterMap, List.filterMap_map]
  refine List.filterMap_congr fun x _ => ?_
  by_cases hport : x.2.port = port <;> simp [hport]

theorem Origin.completes_txnsOf (port : Nat) {os : List Origin} {ds : List (Nat × Response)}
    (h : List.Forall₂ Origin.Completes os ds) :
    List.Forall₂ (fun txn d => Origin.Completes ⟨port, txn⟩ d) (Origin.txnsOf port os)
      (ds.filter (·.1 == port)) := by
  induction h with
  | nil => exact .nil
  | @cons o d os ds hod _ ih =>
    rw [Origin.txnsOf_cons, List.filter_cons]
    by_cases hport : o.port = port
    · have hd : d.1 = port := hod.1.trans hport
      simp only [if_pos hport, hd, beq_self_eq_true, if_true, List.singleton_append]
      refine .cons ?_ ih
      rw [← hport]
      exact hod
    · have hd : d.1 ≠ port := fun heq => hport (hod.1.symm.trans heq)
      simp only [if_neg hport, beq_iff_eq, hd, if_false, List.nil_append]
      exact ih

theorem forall₂_trans {α β γ : Type} {R : α → β → Prop} {S : β → γ → Prop}
    {T : α → γ → Prop}
    {as : List α} {bs : List β} {cs : List γ} (h : List.Forall₂ R as bs)
    (h' : List.Forall₂ S bs cs) (htrans : ∀ a b c, R a b → S b c → T a c) :
    List.Forall₂ T as cs := by
  induction h generalizing cs with
  | nil =>
    cases h'
    exact .nil
  | cons hab _ ih =>
    cases h' with
    | cons hbc hrest => exact .cons (htrans _ _ _ hab hbc) (ih hrest)

/-- The transactions of a port that were served under a number. -/
theorem txnsOf_servedUnder (port id : Nat) (es : List Event) :
    Origin.txnsOf port (servedUnder id es) =
      (servedOn port es).filterMap fun x => if x.1 = id then some x.2 else none := by
  unfold Origin.txnsOf servedUnder servedOn
  rw [List.filterMap_filterMap, List.filterMap_filterMap]
  refine List.filterMap_congr fun x _ => ?_
  by_cases hport : x.2.port = port <;> by_cases hid : x.1 = id <;> simp [hport, hid]

/-- **Places are those in the order of acceptance.** -/
theorem Kept.accepted_of_servedOn {config : AllocatorConfig} {b : Books} {es : List Event}
    (h : Kept (.empty config) es b) {port k : Nat} {x : Nat × Transaction}
    (hk : (servedOn port es)[k]? = some x) :
    (Origin.txnsOf port (acceptedIn es))[k]? = some x.2 := by
  have hfifo := h.fifo port
  rw [← map_servedOn] at hfifo
  have haccepted : Origin.txnsOf port (acceptedIn es) =
      (servedOn port es).map (·.2) ++ b.queued port := hfifo.symm
  have hlt := (List.getElem?_eq_some_iff.mp hk).1
  rw [haccepted, List.getElem?_append_left (by rwa [List.length_map]), List.getElem?_map, hk]
  rfl

/-! ### What an answer completes -/

section Runs

variable {σ : Type} [Requestors σ] [Backend σ]

theorem Event.served_of_drained {e : Event} {response : BackendResponse}
    (h : response ∈ e.drained) : e.served = [] := by
  cases e with
  | answered now response' result => rfl
  | _ => cases h

theorem Event.number_of_served {e : Event} {p q : Nat × Origin} (hp : p ∈ e.served)
    (hq : q ∈ e.served) : p.1 = q.1 := by
  unfold Event.served at hp hq
  split at hp
  · obtain ⟨_, -, rfl⟩ := List.mem_map.mp hp
    obtain ⟨_, -, rfl⟩ := List.mem_map.mp hq
    rfl
  · obtain ⟨_, -, rfl⟩ := List.mem_map.mp hp
    obtain ⟨_, -, rfl⟩ := List.mem_map.mp hq
    rfl
  · cases hp

/-- An answer to a request in flight hands out its completions, if none is lost. -/
theorem Effect.deliveries_of_drained {m m' : Assembly (Recorded σ)} {e : Event} (h : Effect m m' e)
    {response : BackendResponse} (hresponse : response ∈ e.drained) {request : Coalesced}
    (hrequest : m.allocator.outstanding.get? response.id = some request)
    (hlose : e.losesCompletion = false) :
    ∃ ds, request.fanOut response = .ok ds ∧
      m'.surroundings.deliveries = m.surroundings.deliveries ++ ds := by
  cases h with
  | answered hdrain ha hhanded hok =>
    obtain rfl := List.mem_singleton.mp hresponse
    cases hhanded with
    | all hrequest' hds hdeliveries =>
      rw [hrequest] at hrequest'
      cases hrequest'
      exact ⟨_, hds, hdeliveries⟩
    | nothing hnone _ =>
      rw [hrequest] at hnone
      cases hnone
    | short _ _ _ => cases hlose
    | refused => cases hlose
    | broken => exact absurd rfl (hok _)
  | _ => cases hresponse

namespace OrderedRun

variable {config : AllocatorConfig} {m : Assembly (Recorded σ)} {ms pre : List (Moment σ)}
  {x : Moment σ}

/-- What leaves a queue is served by a request that was not answered before. -/
theorem drained_le (h : OrderedRun config m (pre ++ [x])) {id : Nat} {o : Origin}
    (hserved : (id, o) ∈ x.event.served) : (drainedIn (pre.map (·.event))).length ≤ id := by
  obtain ⟨hbefore, -, heffect⟩ := h.effect
  have hconsecutive := h.before.consecutive
  rw [← hbefore] at hconsecutive
  have hbooked := heffect.booked
  generalize x.event = e at hserved hbooked
  generalize x.after.allocator.books = b' at hbooked
  cases hbooked with
  | sent hfresh hqueued huniform =>
    obtain ⟨o', -, heq⟩ := List.mem_map.mp hserved
    cases heq
    rw [Coalesced.id_toBackend]
    exact hconsecutive.answered_le
  | folded hpending hmerged hqueued huniform =>
    obtain ⟨o', -, heq⟩ := List.mem_map.mp hserved
    cases heq
    exact (hconsecutive.of_get? hpending).1
  | quiet hquiet =>
    rw [(Event.of_isQuiet hquiet).2.1] at hserved
    cases hserved
  | _ => cases hserved

/-- **An answer completes all that was ever served under its number**, if no
completion is lost. -/
theorem completions (h : OrderedRun config m ms) (hstart : m.surroundings.deliveries = [])
    (hlose : ∀ x ∈ ms, x.event.losesCompletion = false) :
    List.Forall₂ Origin.Completes
      ((drainedIn (ms.map (·.event))).flatMap fun response =>
        servedUnder response.id (ms.map (·.event)))
      (endOf m ms).surroundings.deliveries := by
  refine h.induct (P := fun pre m' => (∀ x ∈ pre, x.event.losesCompletion = false) →
    List.Forall₂ Origin.Completes
      ((drainedIn (pre.map (·.event))).flatMap fun response =>
        servedUnder response.id (pre.map (·.event))) m'.surroundings.deliveries) ?_ ?_ hlose
  · intro _
    rw [hstart]
    exact .nil
  · intro pre x hx ih hlose
    obtain ⟨hbefore, -, heffect⟩ := hx.effect
    have hpre := ih fun y hy => hlose y (List.mem_append_left _ hy)
    have hlosex := hlose x (by simp)
    -- nothing is served under a number that was answered
    have hsame : ((drainedIn (pre.map (·.event))).flatMap fun response =>
        servedUnder response.id (pre.map (·.event) ++ [x.event])) =
        (drainedIn (pre.map (·.event))).flatMap fun response =>
          servedUnder response.id (pre.map (·.event)) := by
      refine List.flatMap_congr fun response hresponse => ?_
      have hlt : response.id < (drainedIn (pre.map (·.event))).length := by
        rw [← List.mem_range, ← hx.before.ids_drained]
        exact List.mem_map_of_mem hresponse
      have hnone : servedUnder response.id [x.event] = [] := by
        rw [List.eq_nil_iff_forall_not_mem]
        intro o ho
        rw [mem_servedUnder, servedIn_singleton] at ho
        have hle := hx.drained_le ho
        omega
      rw [servedUnder_append, hnone, List.append_nil]
    rw [List.map_append, List.map_singleton, drainedIn_append, List.flatMap_append, hsame]
    by_cases hanswer : x.event.drained = []
    · rw [hanswer, List.flatMap_nil, List.append_nil, heffect.deliveries_eq hanswer]
      exact hpre
    · obtain ⟨response, hresponse⟩ := List.exists_mem_of_ne_nil _ hanswer
      -- the request that is answered is in flight
      obtain ⟨hid, hlt⟩ := hx.drains_oldest hresponse
      have hconsecutive := hx.before.consecutive
      have hkept := hx.before.kept
      rw [← hbefore] at hconsecutive hkept
      rw [← hid] at hconsecutive hlt
      obtain ⟨request, hrequest⟩ := hconsecutive.exists_get? (Nat.le_refl _) hlt
      obtain ⟨ds, hds, hdeliveries⟩ := heffect.deliveries_of_drained hresponse hrequest hlosex
      obtain ⟨hdrained, -⟩ := Event.eq_of_mem_drained hresponse
      have hunder : servedUnder response.id (pre.map (·.event) ++ [x.event]) =
          request.origins := by
        rw [servedUnder_append, (hkept.accounted hrequest).origins,
          servedUnder_of_served_nil (Event.served_of_drained hresponse), List.append_nil]
      rw [hdrained, List.flatMap_singleton, hunder, hdeliveries]
      exact List.rel_append hpre (Coalesced.completes_fanOut hds)

/-- A transaction that leaves its queue is served by a request no older than one
that served a transaction before it, unless it may overtake that one. -/
theorem number_le_of_served (h : OrderedRun config m (pre ++ [x])) {n n' : Nat} {o o' : Origin}
    (hbefore : (n, o) ∈ servedIn (pre.map (·.event))) (hserved : (n', o') ∈ x.event.served)
    (hstay : ¬ config.MayOvertake o.txn o'.txn) : n ≤ n' := by
  have hpast := h.drained_le hserved
  obtain ⟨hstate, hgenuine, heffect⟩ := h.effect
  have hroutes := routes_of_genuine hgenuine (h.unbroken x (by simp))
  have hspaced := h.before.spaced
  have hconsecutive := h.before.consecutive
  have hkept := h.before.kept
  rw [← hstate] at hspaced hconsecutive hkept
  have hunder := mem_servedUnder.mpr hbefore
  have hlt := hkept.lt_of_mem_servedUnder hunder
  have hconfig := hkept.config_eq
  have hbooked := heffect.booked
  generalize x.event = e at hserved hroutes hbooked
  generalize x.after.allocator.books = b' at hbooked
  cases hbooked with
  | sent hfresh hqueued huniform =>
    -- the request that goes out is the youngest of all
    obtain ⟨_, -, heq⟩ := List.mem_map.mp hserved
    cases heq
    rw [Coalesced.id_toBackend]
    exact Nat.le_of_lt hlt
  | @folded _ now granted id request pending merged hpending hmerged hqueued huniform =>
    obtain ⟨_, ho', heq⟩ := List.mem_map.mp hserved
    cases heq
    obtain ⟨hon, hread, -, hlast, -⟩ := hroutes
    rw [hconfig] at hon huniform
    obtain ⟨hline', hcmd'⟩ := huniform o' ho'
    have hsame : config.lineOf o.txn.addr = config.lineOf o'.txn.addr ∧
        o.txn.cmd ≠ .loadLocked := by
      by_contra hdiffers
      rw [not_and_or, not_not] at hdiffers
      exact hstay ⟨hon, hcmd'.trans hread, hdiffers⟩
    -- were the request that served the older transaction younger, it would be in flight
    by_contra hgt
    obtain ⟨c, hc⟩ := hconsecutive.exists_get? (Nat.le_trans hpast (by omega)) hlt
    have haccounted := hkept.accounted hc
    rw [haccounted.origins] at hunder
    obtain ⟨hline, hcmd⟩ := haccounted.uniform o hunder
    rw [hconfig] at hline
    have hlines : c.line = request.line := hline.symm.trans (hsame.1.trans hline')
    obtain ⟨hpendingread, -, hpendingline⟩ := Coalesced.loads_of_absorb? hmerged
    cases hkind : o.txn.cmd with
    | loadLocked => exact hsame.2 hkind
    | read =>
      -- two loads of the line would have a store of the line between them
      obtain ⟨k, store, hk, hidk, -, hstore⟩ :=
        hspaced hon n' n pending c hpending hc (by omega)
        hpendingread (hcmd.symm.trans hkind) (hpendingline.symm.trans hlines.symm)
      have hk' := hlast k store hk ⟨hstore.1.trans hpendingline.symm, hstore.2⟩
      omega
    | write | storeCond | swap =>
      have hn := hlast n c hc ⟨hlines, by rw [← hcmd, hkind]; rfl⟩
      omega
  | quiet hquiet =>
    rw [(Event.of_isQuiet hquiet).2.1] at hserved
    cases hserved
  | _ => cases hserved

/-- **Younger transactions are served by younger requests**, or the same, unless
they may overtake. -/
theorem number_le (h : OrderedRun config m ms) :
    (servedIn (ms.map (·.event))).Pairwise fun p q =>
      ¬ config.MayOvertake p.2.txn q.2.txn → p.1 ≤ q.1 := by
  refine h.induct (P := fun pre _ => (servedIn (pre.map (·.event))).Pairwise fun p q =>
    ¬ config.MayOvertake p.2.txn q.2.txn → p.1 ≤ q.1) .nil ?_
  intro pre x hx ih
  rw [List.map_append, servedIn_append, List.map_singleton, servedIn_singleton]
  refine List.pairwise_append.mpr ⟨ih, ?_, fun p hp q hq => hx.number_le_of_served hp hq⟩
  -- one turn serves all its heads by one request
  refine List.pairwise_of_forall_mem_list fun p hp q hq _ => Nat.le_of_eq ?_
  exact Event.number_of_served hp hq

/-- The completions of a port follow the numbers of the requests, and for one
request the order in which the transactions left their queue. -/
theorem pairwise_completedOn (h : OrderedRun config m ms) (port : Nat) :
    (completedOn port (ms.map (·.event))).Pairwise fun i k =>
      ∀ x y, (servedOn port (ms.map (·.event)))[i]? = some x →
        (servedOn port (ms.map (·.event)))[k]? = some y → x.1 < y.1 ∨ x.1 = y.1 ∧ i < k := by
  have hnumbers : completedOn port (ms.map (·.event)) =
      (List.range (drainedIn (ms.map (·.event))).length).flatMap fun id =>
        placesOf id (servedOn port (ms.map (·.event))) := by
    rw [← h.ids_drained, List.flatMap_map]
    rfl
  rw [hnumbers, List.pairwise_flatMap]
  -- within one answer the positions ascend, between answers the identifiers do
  constructor
  · intro id _
    have hsorted : (placesOf id (servedOn port (ms.map (·.event)))).Pairwise (· < ·) :=
      List.pairwise_lt_range.filter _
    refine hsorted.imp_of_mem fun {i k} hi hk hlt x y hx hy => ?_
    obtain ⟨_, hi⟩ := mem_placesOf.mp hi
    obtain ⟨_, hk⟩ := mem_placesOf.mp hk
    rw [hi] at hx
    rw [hk] at hy
    cases hx
    cases hy
    exact Or.inr ⟨rfl, hlt⟩
  · refine List.pairwise_lt_range.imp fun {a b} hlt i hi k hk x y hx hy => ?_
    obtain ⟨_, hi⟩ := mem_placesOf.mp hi
    obtain ⟨_, hk⟩ := mem_placesOf.mp hk
    rw [hi] at hx
    rw [hk] at hy
    cases hx
    cases hy
    exact Or.inl hlt

/-- A transaction is completed if its request was answered. -/
theorem mem_completedOn (h : OrderedRun config m ms) {port k : Nat} :
    k ∈ completedOn port (ms.map (·.event)) ↔
      ∃ id txn, (servedOn port (ms.map (·.event)))[k]? = some (id, txn) ∧
        id < (drainedIn (ms.map (·.event))).length := by
  have hids : ∀ id, id < (drainedIn (ms.map (·.event))).length ↔
      ∃ response ∈ drainedIn (ms.map (·.event)), response.id = id := by
    intro id
    rw [← List.mem_range, ← h.ids_drained, List.mem_map]
  unfold completedOn
  rw [List.mem_flatMap]
  constructor
  · rintro ⟨response, hresponse, hk⟩
    obtain ⟨txn, hk⟩ := mem_placesOf.mp hk
    exact ⟨response.id, txn, hk, (hids _).mpr ⟨response, hresponse, rfl⟩⟩
  · rintro ⟨id, txn, hk, hlt⟩
    obtain ⟨response, hresponse, rfl⟩ := (hids id).mp hlt
    exact ⟨response, hresponse, mem_placesOf.mpr ⟨txn, hk⟩⟩

/-- **A transaction is completed after an older one of its port**, unless it may
overtake it. -/
theorem completed_before (h : OrderedRun config m ms) {port i k : Nat} {older younger : Transaction}
    (hlt : i < k) (hi : (Origin.txnsOf port (acceptedIn (ms.map (·.event))))[i]? = some older)
    (hk : (Origin.txnsOf port (acceptedIn (ms.map (·.event))))[k]? = some younger)
    (hstay : ¬ config.MayOvertake older younger) {earlier later : List Nat}
    (hsplit : completedOn port (ms.map (·.event)) = earlier ++ k :: later) : i ∈ earlier := by
  have hmem : k ∈ completedOn port (ms.map (·.event)) := by
    rw [hsplit]
    simp
  obtain ⟨n', txn', hservedk, hn'⟩ := h.mem_completedOn.mp hmem
  -- the older transaction left the queue before
  have hlength := (List.getElem?_eq_some_iff.mp hservedk).1
  have hservedi := List.getElem?_eq_getElem (Nat.lt_trans hlt hlength)
  generalize (servedOn port (ms.map (·.event)))[i] = older' at hservedi
  obtain ⟨n, txn⟩ := older'
  have holder := h.kept.accepted_of_servedOn hservedi
  have hyounger := h.kept.accepted_of_servedOn hservedk
  rw [hi] at holder
  rw [hk] at hyounger
  cases holder
  cases hyounger
  -- so its request is no younger, and was answered as well
  have hle : n ≤ n' := by
    have hpairwise : (servedOn port (ms.map (·.event))).Pairwise fun p q =>
        ¬ config.MayOvertake p.2 q.2 → p.1 ≤ q.1 := by
      refine List.Pairwise.filterMap _ (fun p q hpq x hx y hy => ?_) h.number_le
      split at hx <;> cases hx
      split at hy <;> cases hy
      exact hpq
    have hle := List.pairwise_iff_getElem.mp hpairwise i k (Nat.lt_trans hlt hlength) hlength hlt
    obtain ⟨_, hgeti⟩ := List.getElem?_eq_some_iff.mp hservedi
    obtain ⟨_, hgetk⟩ := List.getElem?_eq_some_iff.mp hservedk
    rw [hgeti, hgetk] at hle
    exact hle hstay
  have hdone := h.mem_completedOn.mpr ⟨n, _, hservedi, by omega⟩
  have hpairwise := h.pairwise_completedOn port
  rw [hsplit] at hdone hpairwise
  rcases List.mem_append.mp hdone with hearlier | hrest
  · exact hearlier
  · rcases List.mem_cons.mp hrest with rfl | hlater
    · exact absurd hlt (Nat.lt_irrefl _)
    · have hpairwise := (List.pairwise_append.mp hpairwise).2.1
      have hafter := (List.pairwise_cons.mp hpairwise).1 i hlater _ _ hservedk hservedi
      simp only at hafter
      omega

/-- The completions of a port are those of its transactions, in the order of
`completedOn`. -/
theorem completions_on (h : OrderedRun config m ms) (hstart : m.surroundings.deliveries = [])
    (hlose : ∀ x ∈ ms, x.event.losesCompletion = false) (port : Nat) :
    List.Forall₂ (fun k d => ∃ txn,
        (Origin.txnsOf port (acceptedIn (ms.map (·.event))))[k]? = some txn ∧
          Origin.Completes ⟨port, txn⟩ d)
      (completedOn port (ms.map (·.event)))
      ((endOf m ms).surroundings.deliveries.filter (·.1 == port)) := by
  have hplaces : List.Forall₂ (fun k txn =>
      (Origin.txnsOf port (acceptedIn (ms.map (·.event))))[k]? = some txn)
      (completedOn port (ms.map (·.event)))
      (Origin.txnsOf port ((drainedIn (ms.map (·.event))).flatMap fun response =>
        servedUnder response.id (ms.map (·.event)))) := by
    unfold completedOn
    induction drainedIn (ms.map (·.event)) with
    | nil => exact .nil
    | cons response rest ih =>
      rw [List.flatMap_cons, List.flatMap_cons, Origin.txnsOf_append, txnsOf_servedUnder]
      refine List.rel_append ?_ ih
      exact (forall₂_placesOf _ _).imp fun k txn hk => h.kept.accepted_of_servedOn hk
  have hcompletes := Origin.completes_txnsOf port (h.completions hstart hlose)
  exact forall₂_trans hplaces hcompletes fun k txn d hk hd => ⟨txn, hk, hd⟩

end OrderedRun

/-- **In which order a port gets its completions.**  Let a new allocator run
until a contract is broken, if ever, with a memory that answers in order, and
let no completion be lost, as is the case when no tick fails.  The completions
that a port is handed are those of its transactions, one for each, in the order
of `completedOn`.  In that order, no transaction comes before an older one of
the port, unless coalescing is on, the younger is a load, and the older is for
another line or a load-locked. -/
theorem completed_in_order {config : AllocatorConfig} {a : Allocator}
    (hnew : Allocator.new config = .ok a) (s : σ) (j : Journal) {calls : List (Call σ)}
    {ms : List (Moment σ)} (hms : ms <+: run calls ⟨a, .start s, j⟩) (hok : Unbroken ms)
    (horder : InOrder ms) (hlose : ∀ x ∈ ms, x.event.losesCompletion = false) (port : Nat) :
    List.Forall₂ (fun k d => ∃ txn,
        (Origin.txnsOf port (acceptedIn (ms.map (·.event))))[k]? = some txn ∧
          Origin.Completes ⟨port, txn⟩ d)
      (completedOn port (ms.map (·.event)))
      ((endOf ⟨a, .start s, j⟩ ms).surroundings.deliveries.filter (·.1 == port)) ∧
    (completedOn port (ms.map (·.event))).Nodup ∧
    ∀ i k older younger, i < k →
      (Origin.txnsOf port (acceptedIn (ms.map (·.event))))[i]? = some older →
      (Origin.txnsOf port (acceptedIn (ms.map (·.event))))[k]? = some younger →
      ¬ (config.enableCoalescing = true ∧ younger.cmd = .read ∧
        (config.lineOf older.addr ≠ config.lineOf younger.addr ∨ older.cmd = .loadLocked)) →
      ∀ earlier later, completedOn port (ms.map (·.event)) = earlier ++ k :: later →
        i ∈ earlier := by
  have hrun := orderedRun_of_run hnew s j hms hok horder
  refine ⟨hrun.completions_on rfl hlose port, ?_, ?_⟩
  · refine (hrun.pairwise_completedOn port).imp_of_mem fun {i k} hi hk horder heq => ?_
    subst heq
    obtain ⟨id, txn, hserved, -⟩ := hrun.mem_completedOn.mp hi
    have hlt := horder _ _ hserved hserved
    omega
  · intro i k older younger hlt hi hk hstay earlier later hsplit
    exact hrun.completed_before hlt hi hk hstay hsplit

/-- A lane loads a line.  Another stores to a second line, then loads the first
line and shares the answer, and at last loads the second line. -/
def overtakingLoad : List (Call (Lanes × EchoMemory)) :=
  [.submit 0 1 (.load .read 1 64 4), .tick 0,
    .submit 1 0 (.store .write 2 128 [1, 2, 3, 4]), .tick 1,
    .submit 2 0 (.load .read 3 64 4), .tick 2, .submit 3 0 (.load .read 4 128 4), .tick 3,
    .receive 4 ⟨0, List.replicate 64 0, true⟩, .tick 4, .receive 5 ⟨1, [], true⟩, .tick 5,
    .receive 6 ⟨2, [1, 2, 3, 4] ++ List.replicate 60 0, true⟩, .tick 6]

/-- Where the two lanes begin. -/
def overtakingLoadStart : Assembly (Recorded (Lanes × EchoMemory)) :=
  ⟨.ofConfig { numPorts := 2, requestLatency := 0, enableCoalescing := true },
    .start (Lanes.plain 2, EchoMemory.new false), .start .warn⟩

/-- The load of the first line overtakes the store, and that of the second line
does not. -/
theorem completed_in_order_overtakingLoad :
    List.Forall₂ (fun k d => ∃ txn,
        [.store .write 2 128 [1, 2, 3, 4], .load .read 3 64 4, .load .read 4 128 4][k]? =
          some txn ∧
          Origin.Completes ⟨0, txn⟩ d) [1, 0, 2]
      [(0, ⟨3, .read, 64, [0, 0, 0, 0], true⟩), (0, ⟨2, .write, 128, [], true⟩),
        (0, ⟨4, .read, 128, [1, 2, 3, 4], true⟩)] ∧
    0 ∈ [1, 0] := by
  have hnew : Allocator.new
      { numPorts := 2, requestLatency := 0, enableCoalescing := true } =
      .ok overtakingLoadStart.allocator := by rfl
  obtain ⟨hcompletes, -, hafter⟩ := completed_in_order hnew
    overtakingLoadStart.surroundings.inner (.start .warn) List.prefix_rfl
    (by decide +kernel : Unbroken (run overtakingLoad overtakingLoadStart))
    (by decide +kernel) (by decide +kernel) 0
  have haccepted : Origin.txnsOf 0
      (acceptedIn ((run overtakingLoad overtakingLoadStart).map (·.event))) =
      [.store .write 2 128 [1, 2, 3, 4], .load .read 3 64 4, .load .read 4 128 4] := by
    decide +kernel
  have hcompleted : completedOn 0 ((run overtakingLoad overtakingLoadStart).map (·.event)) =
      [1, 0, 2] := by decide +kernel
  have hdeliveries : (endOf overtakingLoadStart
      (run overtakingLoad overtakingLoadStart)).surroundings.deliveries.filter (·.1 == 0) =
      [(0, ⟨3, .read, 64, [0, 0, 0, 0], true⟩), (0, ⟨2, .write, 128, [], true⟩),
        (0, ⟨4, .read, 128, [1, 2, 3, 4], true⟩)] := by decide +kernel
  constructor
  · rw [← hdeliveries, ← hcompleted, ← haccepted]
    exact hcompletes
  · exact hafter 0 2 (.store .write 2 128 [1, 2, 3, 4]) (.load .read 4 128 4) (by decide)
      (congrArg (·[0]?) haccepted) (congrArg (·[2]?) haccepted) (by decide) [1, 0] [] hcompleted

end Runs

end MemPort
