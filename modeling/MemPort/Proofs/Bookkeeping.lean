import MemPort.Proofs.Answers

/-!
# The books of a run

Of all that an allocator holds, four things say where a transaction is: the
queues, the requests in flight, the next request number and the settings.  These
are its `Books`, and every piece of a run changes them in one of a few ways that
depend on the event alone (`Booked`).  Whatever concerns the fate of
transactions is proved over the books.

## Main definitions

* `Books`, `Allocator.books` — where the transactions are.
* `Booked` — what an event does to the books.
* `Kept` — the books after some events.
* `acceptedIn`, `retiredIn`, `servedIn` — the transactions that were accepted
  and that left their queues, the latter also with the number of the request
  that serves them.

## Main results

* `Effect.booked` — every piece of a run is booked.
* `Kept.fifo` — a port gives up its transactions in the order in which it took
  them.
* `Kept.sent_eq` — requests are numbered in the order in which they go out.
* `Kept.accounted` — a request in flight stands for the transactions that were
  served under its number.

## References

`SPEC_FULL.md`, section 3: queue entries, requests in flight and their numbers.
-/

namespace MemPort

/-! ### What an event says -/

namespace Event

/-- The transaction that was accepted. -/
def accepted : Event → List Origin
  | submitted _ port txn (.ok true) => [⟨port, txn⟩]
  | _ => []

/-- The transactions that left their queues, with the number of the request that
serves them. -/
def served : Event → List (Nat × Origin)
  | turned _ (.ok (.sent _ sent request)) => request.origins.map fun o => (sent.id, o)
  | turned _ (.ok (.folded _ id request)) => request.origins.map fun o => (id, o)
  | _ => []

@[simp] theorem served_sent (now granted : Nat) (sent : BackendRequest) (request : Coalesced) :
    (turned now (.ok (.sent granted sent request))).served =
      request.origins.map fun o => (sent.id, o) := rfl

@[simp] theorem served_folded (now granted id : Nat) (request : Coalesced) :
    (turned now (.ok (.folded granted id request))).served =
      request.origins.map fun o => (id, o) := rfl

/-- The request that went out. -/
def sent : Event → List BackendRequest
  | turned _ (.ok (.sent _ sent _)) => [sent]
  | _ => []

/-- Whether the event moves no transaction. -/
def isQuiet : Event → Bool
  | submitted _ _ _ (.ok true) | turned _ (.ok (.sent ..)) | turned _ (.ok (.folded ..))
  | answered .. => false
  | _ => true

end Event

/-- The transactions that were accepted, in order. -/
def acceptedIn (es : List Event) : List Origin := es.flatMap Event.accepted

/-- The transactions that left their queues, in order, with the numbers of their
requests. -/
def servedIn (es : List Event) : List (Nat × Origin) := es.flatMap Event.served

/-- The transactions that left their queues, in order. -/
def retiredIn (es : List Event) : List Origin := (servedIn es).map (·.2)

/-- The requests that went out, in order. -/
def sentIn (es : List Event) : List BackendRequest := es.flatMap Event.sent

/-- The transactions that were served under a number, in the order in which they
left. -/
def servedUnder (id : Nat) (es : List Event) : List Origin :=
  (servedIn es).filterMap fun s => if s.1 = id then some s.2 else none

/-! ### Books -/

/-- Where the transactions are. -/
structure Books where
  /-- The transactions queued on each port, oldest first. -/
  queued : Nat → List Transaction
  /-- The requests in flight. -/
  outstanding : AscMap Coalesced
  /-- The number of the next request. -/
  nextId : Nat
  /-- The settings. -/
  config : AllocatorConfig

/-- The books of an allocator. -/
def Allocator.books (a : Allocator) : Books := ⟨a.queuedOn, a.outstanding, a.nextId, a.config⟩

/-- The books of an allocator at rest. -/
def Books.empty (config : AllocatorConfig) : Books := ⟨fun _ => [], ∅, 0, config⟩

/-- What an event does to the books. -/
inductive Booked (b : Books) : Event → Books → Prop
  /-- An accepted transaction joins the queue of its port. -/
  | accepted {now port : Nat} {txn : Transaction} :
      Booked b (.submitted now port txn (.ok true))
        { b with queued := fun q => b.queued q ++ Origin.txnsOf q [⟨port, txn⟩] }
  /-- A request that goes out takes the next number and the transactions behind
  it. -/
  | sent {queued : Nat → List Transaction} {now granted : Nat} {request : Coalesced}
      (hfresh : b.outstanding.get? b.nextId = none)
      (hqueued : ∀ q, b.queued q = Origin.txnsOf q request.origins ++ queued q)
      (huniform : request.Uniform b.config.lineSize) :
      Booked b (.turned now (.ok (.sent granted (request.toBackend b.nextId b.config.lineSize)
          request)))
        { b with
          queued
          outstanding := b.outstanding.insert b.nextId request
          nextId := b.nextId + 1 }
  /-- A request that is folded adds the transactions behind it to one in flight. -/
  | folded {queued : Nat → List Transaction} {now granted id : Nat}
      {request pending merged : Coalesced} (hpending : b.outstanding.get? id = some pending)
      (hmerged : pending.absorb? request = some merged)
      (hqueued : ∀ q, b.queued q = Origin.txnsOf q request.origins ++ queued q)
      (huniform : request.Uniform b.config.lineSize) :
      Booked b (.turned now (.ok (.folded granted id request)))
        { b with queued, outstanding := b.outstanding.insert id merged }
  /-- An answer takes its request out of flight, if there is one. -/
  | answered {now : Nat} {response : BackendResponse} {result : Except Failure Unit} :
      Booked b (.answered now response result)
        { b with outstanding := b.outstanding.erase response.id }
  /-- Any other event leaves the books as they are. -/
  | quiet {e : Event} (h : e.isQuiet = true) : Booked b e b

/-- The books after some events. -/
inductive Kept (b₀ : Books) : List Event → Books → Prop
  /-- Nothing happened. -/
  | start : Kept b₀ [] b₀
  /-- One more event was booked. -/
  | step {es : List Event} {b b' : Books} {e : Event} (h : Kept b₀ es b) (hstep : Booked b e b') :
      Kept b₀ (es ++ [e]) b'

/-! ### Pieces are booked -/

theorem Relays.books {a b : Allocator} (h : Relays a b) : b.books = a.books := by
  obtain ⟨_, _, rfl⟩ := h.frame
  rfl

namespace Assembly

variable {σ : Type} [Requestors σ] [Backend σ]

theorem booked_served {m m' : Assembly σ} {now granted : Nat} {request : Coalesced}
    {result : Except Failure Turn} (h : Served m now granted request result m')
    (hok : ∀ a, result ≠ .error (.assertion a))
    (huniform : request.Uniform m.allocator.config.lineSize) :
    Booked m.allocator.books (.turned now result) m'.allocator.books := by
  cases h with
  | broken a => exact absurd rfl (hok a)
  | duplicate _ h _ =>
    rw [h]
    exact .quiet rfl
  -- a refused offer is counted and nothing else
  | refused h =>
    obtain ⟨stats, ha⟩ := h.allocator
    rw [ha]
    exact .quiet rfl
  | sent h _ =>
    obtain ⟨ports, stats, locks, -, ha⟩ := h.allocator
    have hqueued := h.queuedOn
    rw [h.sent_eq]
    rw [ha] at hqueued ⊢
    exact .sent h.fresh hqueued huniform
  | folded h _ =>
    obtain ⟨pending, merged, ports, stats, hpending, hmerged, ha⟩ := h.allocator
    have hqueued := h.queuedOn
    rw [ha] at hqueued ⊢
    exact .folded hpending hmerged hqueued huniform

omit [Requestors σ] [Backend σ] in
/-- The check of a lock leaves the books as they are. -/
theorem books_cleared {m m' : Assembly σ} {now granted : Nat} {head : Transaction}
    (h : Cleared m m' now granted head) : m'.allocator.books = m.allocator.books := by
  have hqueued := h.queuedOn
  obtain ⟨c, table, ports, stats, -, -, -, ha⟩ := h.allocator
  unfold Allocator.books
  rw [funext hqueued, ha]

theorem booked_turned {m m' : Assembly σ} {now : Nat} {result : Except Failure Turn}
    (h : Turned m now result m') (hok : ∀ a, result ≠ .error (.assertion a)) :
    Booked m.allocator.books (.turned now result) m'.allocator.books := by
  cases h with
  | idle _ => exact .quiet rfl
  | parked _ _ ha hq _ =>
    have hbooks : m'.allocator.books = m.allocator.books := by
      obtain ⟨p, stats, -, ha⟩ := ha
      unfold Allocator.books
      rw [funext hq, ha]
    rw [hbooks]
    exact .quiet rfl
  | spilled hcleared _ _ _ =>
    rw [books_cleared hcleared]
    exact .quiet rfl
  -- the checks before the offer leave the books as they are
  | served hcleared hformed hserved =>
    rw [← books_cleared hcleared]
    refine booked_served hserved hok ?_
    rw [hcleared.config_eq]
    exact hformed.uniform

end Assembly

/-- A submission is booked, whether or not it is taken. -/
theorem booked_of_submitted {a a' : Allocator} {now port : Nat} {txn : Transaction} {taken : Bool}
    (ha : ∃ ports stats, a' = { a with ports, stats })
    (hq : ∀ q, a'.queuedOn q =
      a.queuedOn q ++ if taken then Origin.txnsOf q [⟨port, txn⟩] else []) :
    Booked a.books (.submitted now port txn (.ok taken)) a'.books := by
  obtain ⟨ports, stats, ha⟩ := ha
  have hbooks : a'.books = { a.books with
      queued := fun q =>
        a.queuedOn q ++ if taken then Origin.txnsOf q [⟨port, txn⟩] else [] } := by
    unfold Allocator.books
    rw [funext hq, ha]
  rw [hbooks]
  cases taken with
  | true => exact .accepted
  | false =>
    simp only [Bool.false_eq_true, if_false, List.append_nil]
    exact .quiet rfl

section Genuine

variable {σ : Type} [Requestors σ] [Backend σ]

/-- **Every effect is booked.** -/
theorem Effect.booked {m m' : Assembly (Recorded σ)} {e : Event} (h : Effect m m' e) :
    Booked m.allocator.books e m'.allocator.books := by
  cases h with
  | submitted ha hq hs => exact booked_of_submitted ha hq
  | received ha hs =>
    rw [show m'.allocator = _ from (congrArg Prod.snd ha).symm,
      (Relays.received _ _ .refl).books]
    exact .quiet rfl
  | resumed ha hs =>
    rw [ha]
    exact .quiet rfl
  | performed ha hs =>
    obtain ⟨stats, ha⟩ := ha
    rw [ha]
    exact .quiet rfl
  | rejected h =>
    rw [h]
    exact .quiet rfl
  | elapsed ha hs =>
    rw [ha.books]
    exact .quiet rfl
  | answered hdrain ha hhanded hok =>
    obtain ⟨stats, lastActive, ha⟩ := ha
    rw [ha]
    exact .answered
  | settled ha hs =>
    rw [ha]
    exact .quiet rfl
  -- unparking changes the ports, but not what is queued on them
  | swept ha hq hs =>
    obtain ⟨ports, stats, ha⟩ := ha
    have hbooks : m'.allocator.books = m.allocator.books := by
      unfold Allocator.books
      rw [funext hq, ha]
    rw [hbooks]
    exact .quiet rfl
  | turned hbusy hok h => exact Assembly.booked_turned h hok
  | checked ha hs =>
    obtain ⟨next, ha⟩ := ha
    rw [ha]
    exact .quiet rfl

/-- **The books of a run are kept by its events.** -/
theorem Linked.kept {m : Assembly (Recorded σ)} {ms : List (Moment σ)} (h : Linked m ms)
    (hok : Unbroken ms) :
    Kept m.allocator.books (ms.map (·.event)) (endOf m ms).allocator.books := by
  refine Linked.induct (P := fun pre m' => Kept m.allocator.books (pre.map (·.event))
    m'.allocator.books) (R := fun _ => True) .start ?_ h hok fun _ _ => trivial
  intro pre x hpre hx hokx _
  rw [List.map_append]
  exact hpre.step (effect_of_genuine hx hokx).booked

end Genuine

/-! ### An allocator at rest -/

/-- An allocator at rest, without the check of its configuration. -/
def Allocator.ofConfig (config : AllocatorConfig) : Allocator where
  config
  ports := (List.range config.numPorts).map fun port =>
    .ofLatency port (config.portLatency port)
  backendPort := .ofLatency config.responseLatency
  arbiter := ⟨config.numPorts, none⟩
  outstanding := ∅
  locks := ⟨config.lockTimeout, ∅⟩
  nextId := 0
  lastActive := 0
  nextProgressCheck := config.progressCheckPeriod
  stats := {}

theorem TimedQueue.eq_of_new {α : Type} {c : QueueConfig} {q : TimedQueue α}
    (h : TimedQueue.new c = .ok q) : q = .ofConfig c := by
  unfold TimedQueue.new at h
  split at h
  · cases h
  · split at h
    · cases h
    · cases h
      rfl

theorem RequestorPort.eq_of_new {id latency : Nat} {p : RequestorPort}
    (h : RequestorPort.new id latency = .ok p) : p = .ofLatency id latency := by
  obtain ⟨q, hq, heq⟩ := exists_of_bind_eq_ok h
  cases heq
  rw [TimedQueue.eq_of_new hq]
  rfl

theorem BackendPort.eq_of_new {latency : Nat} {p : BackendPort}
    (h : BackendPort.new latency = .ok p) : p = .ofLatency latency := by
  obtain ⟨q, hq, heq⟩ := exists_of_bind_eq_ok h
  cases heq
  rw [TimedQueue.eq_of_new hq]
  rfl

theorem RequestorPort.eq_of_mapM_new {latency : Nat → Nat} {ports : List Nat}
    {ps : List RequestorPort}
    (h : ports.mapM (fun port => RequestorPort.new port (latency port)) = .ok ps) :
    ps = ports.map fun port => .ofLatency port (latency port) := by
  induction ports generalizing ps with
  | nil =>
    cases h
    rfl
  | cons port rest ih =>
    rw [List.mapM_cons] at h
    obtain ⟨p, hp, h⟩ := exists_of_bind_eq_ok h
    obtain ⟨ps', hrest, heq⟩ := exists_of_bind_eq_ok h
    cases heq
    rw [List.map_cons, RequestorPort.eq_of_new hp, ih hrest]

/-- **A new allocator is at rest**, and its configuration passed the check. -/
theorem Allocator.eq_of_new {config : AllocatorConfig} {a : Allocator}
    (h : Allocator.new config = .ok a) : config.check = .ok () ∧ a = .ofConfig config := by
  unfold Allocator.new at h
  obtain ⟨_, hcheck, h⟩ := exists_of_bind_eq_ok h
  obtain ⟨ports, hports, h⟩ := exists_of_bind_eq_ok h
  obtain ⟨backendPort, hback, h⟩ := exists_of_bind_eq_ok h
  obtain ⟨arbiter, harb, h⟩ := exists_of_bind_eq_ok h
  obtain ⟨locks, hlocks, heq⟩ := exists_of_bind_eq_ok h
  -- the parts are made one by one, each from its own setting
  have harbiter : arbiter = ⟨config.numPorts, none⟩ := by
    unfold RoundRobin.new at harb
    split at harb <;> cases harb
    rfl
  have htable : locks = ⟨config.lockTimeout, ∅⟩ := by
    unfold LockTable.new at hlocks
    split at hlocks <;> cases hlocks
    rfl
  cases heq
  rw [RequestorPort.eq_of_mapM_new hports, BackendPort.eq_of_new hback, harbiter, htable]
  exact ⟨hcheck, rfl⟩

theorem Allocator.books_new {config : AllocatorConfig} {a : Allocator}
    (h : Allocator.new config = .ok a) : a.books = .empty config := by
  rw [(eq_of_new h).2]
  unfold books Books.empty
  congr 1
  funext q
  unfold queuedOn queuedIn ofConfig
  rw [List.getElem?_map, Option.map_map]
  cases (List.range config.numPorts)[q]? <;> rfl

/-! ### What follows for the events -/

section Log

@[simp] theorem acceptedIn_append (es es' : List Event) :
    acceptedIn (es ++ es') = acceptedIn es ++ acceptedIn es' := List.flatMap_append

@[simp] theorem servedIn_append (es es' : List Event) :
    servedIn (es ++ es') = servedIn es ++ servedIn es' := List.flatMap_append

@[simp] theorem retiredIn_append (es es' : List Event) :
    retiredIn (es ++ es') = retiredIn es ++ retiredIn es' := by
  unfold retiredIn
  rw [servedIn_append, List.map_append]

@[simp] theorem sentIn_append (es es' : List Event) :
    sentIn (es ++ es') = sentIn es ++ sentIn es' := List.flatMap_append

@[simp] theorem servedUnder_append (id : Nat) (es es' : List Event) :
    servedUnder id (es ++ es') = servedUnder id es ++ servedUnder id es' := by
  unfold servedUnder
  rw [servedIn_append, List.filterMap_append]

theorem Event.of_isQuiet {e : Event} (h : e.isQuiet = true) :
    e.accepted = [] ∧ e.served = [] ∧ e.sent = [] ∧ e.drained = [] := by
  cases e with
  -- a transaction is moved by a submission, by a turn or by an answer
  | submitted now port txn result =>
    cases result with
    | error f => exact ⟨rfl, rfl, rfl, rfl⟩
    | ok taken =>
      cases taken with
      | false => exact ⟨rfl, rfl, rfl, rfl⟩
      | true => cases h
  | turned now result =>
    cases result with
    | error f => exact ⟨rfl, rfl, rfl, rfl⟩
    | ok turn =>
      cases turn with
      | idle => exact ⟨rfl, rfl, rfl, rfl⟩
      | parked port => exact ⟨rfl, rfl, rfl, rfl⟩
      | refused port sent => exact ⟨rfl, rfl, rfl, rfl⟩
      | folded port id request => cases h
      | sent port sent request => cases h
  | answered now response result => cases h
  | _ => exact ⟨rfl, rfl, rfl, rfl⟩

@[simp] theorem acceptedIn_singleton (e : Event) : acceptedIn [e] = e.accepted :=
  List.flatMap_singleton ..

@[simp] theorem servedIn_singleton (e : Event) : servedIn [e] = e.served :=
  List.flatMap_singleton ..

@[simp] theorem sentIn_singleton (e : Event) : sentIn [e] = e.sent := List.flatMap_singleton ..

@[simp] theorem retiredIn_singleton (e : Event) : retiredIn [e] = e.served.map (·.2) := by
  unfold retiredIn
  rw [servedIn_singleton]

theorem map_snd_pair (id : Nat) (os : List Origin) :
    (os.map fun o => (id, o)).map (·.2) = os := by
  rw [List.map_map]
  exact List.map_id _

/-- The transactions of one request are served under its number. -/
theorem servedUnder_of_served {e : Event} {id : Nat} {os : List Origin}
    (h : e.served = os.map fun o => (id, o)) (k : Nat) :
    servedUnder k [e] = if id = k then os else [] := by
  unfold servedUnder
  rw [servedIn_singleton, h, List.filterMap_map]
  by_cases hk : id = k <;> simp [hk]

theorem servedUnder_sent (now granted id lineSize : Nat) (request : Coalesced) (k : Nat) :
    servedUnder k [.turned now (.ok (.sent granted (request.toBackend id lineSize) request))] =
      if id = k then request.origins else [] := by
  refine servedUnder_of_served ?_ k
  rw [Event.served_sent, Coalesced.id_toBackend]

theorem servedUnder_folded (now granted id : Nat) (request : Coalesced) (k : Nat) :
    servedUnder k [.turned now (.ok (.folded granted id request))] =
      if id = k then request.origins else [] :=
  servedUnder_of_served rfl k

theorem Event.eq_of_mem_sent {e : Event} {r r' : BackendRequest} (h : r ∈ e.sent)
    (h' : r' ∈ e.sent) : r = r' := by
  unfold Event.sent at h h'
  split at h
  · rw [List.mem_singleton.mp h, List.mem_singleton.mp h']
  · cases h

theorem Event.eq_of_mem_accepted {now port : Nat} {txn : Transaction}
    {result : Except Failure Bool} {o : Origin}
    (h : o ∈ (Event.submitted now port txn result).accepted) : o = ⟨port, txn⟩ := by
  unfold Event.accepted at h
  split at h
  · rename_i heq
    cases heq
    exact List.mem_singleton.mp h
  · cases h

theorem Event.isBroken_of_mem_served {e : Event} {p : Nat × Origin} (h : p ∈ e.served) :
    e.isBroken = false := by
  unfold Event.served at h
  split at h
  · rfl
  · rfl
  · cases h

theorem Event.isBroken_of_mem_sent {e : Event} {r : BackendRequest} (h : r ∈ e.sent) :
    e.isBroken = false := by
  unfold Event.sent at h
  split at h
  · rfl
  · cases h

theorem mem_servedUnder {id : Nat} {o : Origin} {es : List Event} :
    o ∈ servedUnder id es ↔ (id, o) ∈ servedIn es := by
  unfold servedUnder
  rw [List.mem_filterMap]
  constructor
  · rintro ⟨⟨k, o'⟩, hmem, heq⟩
    split at heq
    · rename_i hk
      cases heq
      exact hk ▸ hmem
    · cases heq
  · intro hmem
    exact ⟨(id, o), hmem, if_pos rfl⟩

/-- What joins a queue joins it at the end, and what leaves it leaves from the
front. -/
theorem Booked.queued_eq {b b' : Books} {e : Event} (h : Booked b e b') (q : Nat) :
    b.queued q ++ Origin.txnsOf q e.accepted =
      Origin.txnsOf q (e.served.map (·.2)) ++ b'.queued q := by
  cases h with
  | accepted => rfl
  | sent hfresh hqueued huniform =>
    rw [Event.served_sent, map_snd_pair]
    exact (List.append_nil _).trans (hqueued q)
  | folded hpending hmerged hqueued huniform =>
    rw [Event.served_folded, map_snd_pair]
    exact (List.append_nil _).trans (hqueued q)
  | answered => exact List.append_nil _
  | quiet hquiet =>
    obtain ⟨hacc, hserved, -, -⟩ := Event.of_isQuiet hquiet
    rw [hacc, hserved]
    exact List.append_nil _

/-- The numbers in use are below the next one. -/
def Books.Numbered (b : Books) : Prop :=
  ∀ id request, b.outstanding.get? id = some request → id < b.nextId

theorem Booked.numbered {b b' : Books} {e : Event} (h : Booked b e b') (hb : b.Numbered) :
    b'.Numbered := by
  intro id request hid
  cases h with
  | accepted => exact hb id request hid
  | quiet hquiet => exact hb id request hid
  | answered =>
    simp only [AscMap.get?_erase] at hid
    split at hid
    · cases hid
    · exact hb id request hid
  | sent hfresh hqueued huniform =>
    simp only [AscMap.get?_insert] at hid
    split at hid
    · rename_i heq
      exact heq ▸ Nat.lt_succ_self _
    · exact Nat.lt_succ_of_lt (hb id request hid)
  -- a fold keeps the identifier of the request it joins
  | folded hpending hmerged hqueued huniform =>
    simp only [AscMap.get?_insert] at hid
    split at hid
    · rename_i heq
      exact heq ▸ hb _ _ hpending
    · exact hb id request hid

theorem Books.Numbered.contains_eq {b : Books} (h : b.Numbered) :
    b.outstanding.contains b.nextId = false := by
  unfold AscMap.contains
  cases hid : b.outstanding.get? b.nextId with
  | none => rfl
  | some request => exact absurd (h _ _ hid) (Nat.lt_irrefl _)

namespace Kept

variable {b₀ b : Books} {es : List Event}

/-- **Queues are first in, first out**: on every port, the transactions that
left, followed by those still queued, are those that were queued at the start,
followed by those that were accepted. -/
theorem fifo (h : Kept b₀ es b) (port : Nat) :
    Origin.txnsOf port (retiredIn es) ++ b.queued port =
      b₀.queued port ++ Origin.txnsOf port (acceptedIn es) := by
  induction h with
  | start => exact (List.append_nil _).symm
  | @step es b b' e _ hstep ih =>
    rw [retiredIn_append, acceptedIn_append, Origin.txnsOf_append, Origin.txnsOf_append,
      acceptedIn_singleton, retiredIn_singleton, List.append_assoc, ← hstep.queued_eq port,
      ← List.append_assoc, ih, List.append_assoc]

theorem trans {b' : Books} {es' : List Event} (h : Kept b₀ es b) (h' : Kept b es' b') :
    Kept b₀ (es ++ es') b' := by
  induction h' with
  | start =>
    rw [List.append_nil]
    exact h
  | step _ hstep ih =>
    rw [← List.append_assoc]
    exact ih.step hstep

theorem config_eq (h : Kept b₀ es b) : b.config = b₀.config := by
  induction h with
  | start => rfl
  | step _ hstep ih => cases hstep <;> exact ih

/-- **Requests are numbered in the order in which they go out.** -/
theorem sent_eq {config : AllocatorConfig} (h : Kept (.empty config) es b) :
    (sentIn es).map (·.id) = List.range b.nextId := by
  induction h with
  | start => rfl
  | @step es b b' e _ hstep ih =>
    rw [sentIn_append, sentIn_singleton, List.map_append, ih]
    cases hstep with
    | accepted => exact List.append_nil _
    | sent hfresh hqueued huniform =>
      unfold Event.sent
      rw [List.range_succ, List.map_singleton, Coalesced.id_toBackend]
    | folded hpending hmerged hqueued huniform => exact List.append_nil _
    | answered => exact List.append_nil _
    | quiet hquiet =>
      rw [(Event.of_isQuiet hquiet).2.2.1]
      exact List.append_nil _

end Kept

/-- What is known of a request in flight from the events: it stands for the
transactions that were served under its number, all for one line, and went out
under that number as the memory saw it. -/
structure Accounted (es : List Event) (b : Books) (id : Nat) (request : Coalesced) : Prop where
  /-- Its number is not one that is still to come. -/
  lt : id < b.nextId
  /-- The transactions behind it were served under its number, in this order. -/
  origins : servedUnder id es = request.origins
  /-- The memory saw the request under its number. -/
  sent : (sentIn es)[id]? = some (request.toBackend id b.config.lineSize)
  /-- It is for one line. -/
  uniform : request.Uniform b.config.lineSize

theorem Booked.nextId_le {b b' : Books} {e : Event} (h : Booked b e b') :
    b.nextId ≤ b'.nextId := by
  cases h with
  | sent hfresh hqueued huniform => exact Nat.le_succ _
  | _ => exact Nat.le_refl _

theorem Booked.config_eq {b b' : Books} {e : Event} (h : Booked b e b') : b'.config = b.config := by
  cases h <;> rfl

/-- A drained answer takes its request out of flight, and does nothing else. -/
theorem Booked.of_answered {b b' : Books} {now : Nat} {response : BackendResponse}
    {result : Except Failure Unit} (h : Booked b (.answered now response result) b') :
    b' = { b with outstanding := b.outstanding.erase response.id } := by
  cases h with
  | answered => rfl
  | quiet hquiet => cases hquiet

theorem Booked.of_sent {b b' : Books} {now granted : Nat} {sent : BackendRequest}
    {request : Coalesced} (h : Booked b (.turned now (.ok (.sent granted sent request))) b') :
    sent = request.toBackend b.nextId b.config.lineSize ∧ request.Uniform b.config.lineSize ∧
      b'.outstanding = b.outstanding.insert b.nextId request ∧ b'.nextId = b.nextId + 1 := by
  cases h with
  | sent hfresh hqueued huniform => exact ⟨rfl, huniform, rfl, rfl⟩
  | quiet hquiet => cases hquiet

theorem Booked.of_folded {b b' : Books} {now granted id : Nat} {request : Coalesced}
    (h : Booked b (.turned now (.ok (.folded granted id request))) b') :
    ∃ pending merged, b.outstanding.get? id = some pending ∧
      pending.absorb? request = some merged ∧ request.Uniform b.config.lineSize ∧
      b'.outstanding = b.outstanding.insert id merged ∧ b'.nextId = b.nextId := by
  cases h with
  | folded hpending hmerged hqueued huniform =>
    exact ⟨_, _, hpending, hmerged, huniform, rfl, rfl⟩
  | quiet hquiet => cases hquiet

/-- Where nothing is served and nothing drained, the same requests are in flight. -/
theorem Booked.of_idle {b b' : Books} {e : Event} (h : Booked b e b') (hserved : e.served = [])
    (hdrained : e.drained = []) : b'.outstanding = b.outstanding ∧ b'.nextId = b.nextId := by
  cases h with
  | accepted => exact ⟨rfl, rfl⟩
  | sent hfresh hqueued huniform => cases hserved
  | folded hpending hmerged hqueued huniform => cases hserved
  | answered => cases hdrained
  | quiet hquiet => exact ⟨rfl, rfl⟩

/-- A request in flight stays accounted for while nothing is served under its
number. -/
theorem Accounted.mono {es : List Event} {b b' : Books} {e : Event} {id : Nat}
    {request : Coalesced} (h : Accounted es b id request) (hstep : Booked b e b')
    (hserved : servedUnder id [e] = []) : Accounted (es ++ [e]) b' id request := by
  refine ⟨Nat.lt_of_lt_of_le h.lt hstep.nextId_le, ?_, ?_, hstep.config_eq ▸ h.uniform⟩
  · rw [servedUnder_append, hserved, List.append_nil]
    exact h.origins
  · have hsent := h.sent
    have hlt := (List.getElem?_eq_some_iff.mp hsent).1
    rw [sentIn_append, List.getElem?_append_left hlt, hsent, hstep.config_eq]

theorem servedUnder_of_served_nil {e : Event} (h : e.served = []) (id : Nat) :
    servedUnder id [e] = [] := by
  unfold servedUnder
  rw [servedIn_singleton, h]
  rfl

/-- Joining a request in flight does not change what the memory saw of it. -/
theorem toBackend_absorb? {c other d : Coalesced} (h : c.absorb? other = some d)
    (id lineSize : Nat) : d.toBackend id lineSize = c.toBackend id lineSize := by
  unfold Coalesced.absorb? at h
  split at h
  · cases h
    rfl
  · cases h

/-- A load that is joined stands for the transactions of both. -/
theorem Accounted.joined {es : List Event} {b b' : Books} {now granted id : Nat}
    {request pending merged : Coalesced} (h : Accounted es b id pending)
    (hstep : Booked b (.turned now (.ok (.folded granted id request))) b')
    (hmerged : pending.absorb? request = some merged)
    (huniform : request.Uniform b.config.lineSize) :
    Accounted (es ++ [.turned now (.ok (.folded granted id request))]) b' id merged := by
  refine ⟨Nat.lt_of_lt_of_le h.lt hstep.nextId_le, ?_, ?_, ?_⟩
  · rw [servedUnder_append, h.origins, servedUnder_folded, if_pos rfl,
      (Coalesced.origins_absorb? hmerged).1]
  · have hsent := h.sent
    have hlt := (List.getElem?_eq_some_iff.mp hsent).1
    rw [sentIn_append, List.getElem?_append_left hlt, hsent, hstep.config_eq,
      toBackend_absorb? hmerged]
  · rw [hstep.config_eq]
    exact Coalesced.uniform_absorb? h.uniform huniform hmerged

namespace Kept

variable {config : AllocatorConfig} {b : Books} {es : List Event}

theorem nextId_le {b₀ : Books} (h : Kept b₀ es b) : b₀.nextId ≤ b.nextId := by
  induction h with
  | start => exact Nat.le_refl _
  | step _ hstep ih => exact Nat.le_trans ih hstep.nextId_le

/-- Requests that go out get numbers from the next one on. -/
theorem id_mem_sentIn {b₀ : Books} (h : Kept b₀ es b) {sent : BackendRequest}
    (hsent : sent ∈ sentIn es) : b₀.nextId ≤ sent.id ∧ sent.id < b.nextId := by
  induction h with
  | start => cases hsent
  | @step es b b' e hkept hstep ih =>
    rw [sentIn_append, List.mem_append, sentIn_singleton] at hsent
    rcases hsent with hsent | hsent
    · obtain ⟨hge, hlt⟩ := ih hsent
      exact ⟨hge, Nat.lt_of_lt_of_le hlt hstep.nextId_le⟩
    · cases hstep with
      -- the request sent here has the next identifier, which then moves on
      | sent hfresh hqueued huniform =>
        rw [List.mem_singleton.mp hsent, Coalesced.id_toBackend]
        exact ⟨hkept.nextId_le, Nat.lt_succ_self _⟩
      | quiet hquiet =>
        rw [(Event.of_isQuiet hquiet).2.2.1] at hsent
        cases hsent
      | _ => cases hsent

theorem getElem?_sentIn (h : Kept (.empty config) es b) {sent : BackendRequest}
    (hsent : sent ∈ sentIn es) : (sentIn es)[sent.id]? = some sent := by
  obtain ⟨i, hi, hget⟩ := List.mem_iff_getElem.mp hsent
  have hid : ((sentIn es).map (·.id))[i]? = some sent.id := by
    rw [List.getElem?_map, List.getElem?_eq_getElem hi, hget]
    rfl
  rw [h.sent_eq, List.getElem?_range] at hid
  · rw [← Option.some.inj hid, List.getElem?_eq_getElem hi, hget]
  · have hlen := congrArg List.length h.sent_eq
    rw [List.length_map, List.length_range] at hlen
    rwa [← hlen]

theorem length_sentIn (h : Kept (.empty config) es b) : (sentIn es).length = b.nextId := by
  have hlen := congrArg List.length h.sent_eq
  rwa [List.length_map, List.length_range] at hlen

/-- The requests in flight are accounted for, and nothing is served under a
number to come. -/
theorem accounts (h : Kept (.empty config) es b) :
    (∀ id request, b.outstanding.get? id = some request → Accounted es b id request) ∧
      ∀ id, b.nextId ≤ id → servedUnder id es = [] := by
  induction h with
  | start =>
    refine ⟨fun id request hid => ?_, fun id _ => rfl⟩
    cases hid
  | @step es b b' e hkept hstep ih =>
    obtain ⟨ihin, ihto⟩ := ih
    -- events that serve nothing: no new request, and no new transaction
    have hidle : e.served = [] → (∀ id request, b'.outstanding.get? id = some request →
        b.outstanding.get? id = some request) →
        (∀ id request, b'.outstanding.get? id = some request →
          Accounted (es ++ [e]) b' id request) ∧
        ∀ id, b'.nextId ≤ id → servedUnder id (es ++ [e]) = [] := by
      intro hnone hsub
      refine ⟨fun id request hid => ?_, fun id hid => ?_⟩
      · exact (ihin id request (hsub id request hid)).mono hstep
          (servedUnder_of_served_nil hnone id)
      · rw [servedUnder_append, ihto id (Nat.le_trans hstep.nextId_le hid),
          servedUnder_of_served_nil hnone, List.append_nil]
    cases hstep with
    | accepted => exact hidle rfl fun _ _ hid => hid
    | quiet hquiet => exact hidle (Event.of_isQuiet hquiet).2.1 fun _ _ hid => hid
    | answered =>
      refine hidle rfl fun id request hid => ?_
      simp only [AscMap.get?_erase] at hid
      split at hid
      · cases hid
      · exact hid
    | @sent queued now granted request hfresh hqueued huniform =>
      have hunder := servedUnder_sent now granted b.nextId b.config.lineSize request
      have hbooked : Booked b (.turned now (.ok (.sent granted
          (request.toBackend b.nextId b.config.lineSize) request))) _ :=
        .sent hfresh hqueued huniform
      refine ⟨fun id request' hid => ?_, fun id hid => ?_⟩
      · simp only [AscMap.get?_insert] at hid
        split at hid
        · -- the request that went out
          rename_i heq
          subst heq
          cases hid
          refine ⟨Nat.lt_succ_self _, ?_, ?_, huniform⟩
          · rw [servedUnder_append, ihto _ (Nat.le_refl _), hunder, if_pos rfl]
            rfl
          · rw [sentIn_append, List.getElem?_append_right (Nat.le_of_eq hkept.length_sentIn),
              hkept.length_sentIn, Nat.sub_self, sentIn_singleton]
            rfl
        · rename_i hne
          refine (ihin id request' hid).mono hbooked ?_
          rw [hunder, if_neg hne]
      · have hne : b.nextId ≠ id := Nat.ne_of_lt hid
        rw [servedUnder_append, ihto id (Nat.le_of_succ_le hid), hunder, if_neg hne]
        rfl
    | @folded queued now granted k request pending merged hpending hmerged hqueued huniform =>
      have hunder := servedUnder_folded now granted k request
      have hbooked : Booked b (.turned now (.ok (.folded granted k request))) _ :=
        .folded hpending hmerged hqueued huniform
      have hold := ihin k pending hpending
      refine ⟨fun id request' hid => ?_, fun id hid => ?_⟩
      · simp only [AscMap.get?_insert] at hid
        split at hid
        · -- the request that was joined
          rename_i heq
          subst heq
          cases hid
          exact hold.joined hbooked hmerged huniform
        · rename_i hne
          refine (ihin id request' hid).mono hbooked ?_
          rw [hunder, if_neg hne]
      · have hne : k ≠ id := Nat.ne_of_lt (Nat.lt_of_lt_of_le hold.lt hid)
        rw [servedUnder_append, ihto id hid, hunder, if_neg hne]
        rfl

theorem lt_of_mem_servedUnder (h : Kept (.empty config) es b) {id : Nat} {o : Origin}
    (ho : o ∈ servedUnder id es) : id < b.nextId := by
  by_contra hge
  rw [h.accounts.2 id (Nat.le_of_not_lt hge)] at ho
  cases ho

/-- What left a queue had been accepted. -/
theorem mem_acceptedIn (h : Kept (.empty config) es b) {o : Origin} (ho : o ∈ retiredIn es) :
    o ∈ acceptedIn es := by
  have hretired : o.txn ∈ Origin.txnsOf o.port (retiredIn es) :=
    List.mem_filterMap.mpr ⟨o, ho, if_pos rfl⟩
  have haccepted : o.txn ∈ Origin.txnsOf o.port (acceptedIn es) := by
    rw [show Origin.txnsOf o.port (acceptedIn es) = _ from (h.fifo o.port).symm]
    exact List.mem_append_left _ hretired
  obtain ⟨o', ho', heq⟩ := List.mem_filterMap.mp haccepted
  split at heq
  · rename_i hport
    cases o
    cases o'
    cases heq
    cases hport
    exact ho'
  · cases heq

/-- **Every request in flight is accounted for.** -/
theorem accounted (h : Kept (.empty config) es b) {id : Nat} {request : Coalesced}
    (hid : b.outstanding.get? id = some request) : Accounted es b id request :=
  h.accounts.1 id request hid

end Kept

end Log

end MemPort
