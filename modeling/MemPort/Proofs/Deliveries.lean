import Mathlib.Data.List.Forall2
import MemPort.Proofs.Runs

/-!
# What the requestors get

Surroundings that are recorded remember every completion that a lane took.  Here
it is shown that no call to the surroundings but one adds a completion, and that
an answer that is handed out completes the transactions behind its request, each
on its own port and in the order in which they joined.

## Main definitions

* `Recorded.deliveries` — the completions that were taken, in order, with
  their ports.
* `Origin.Completes` — a completion belongs to a transaction.
* `Handed` — what draining an answer hands out.

## Main results

* `Assembly.answer_keeps` — what an answer keeps, whether or not it is handed
  out.
* `handed_answer` — what a drained answer hands out.
* `Coalesced.completes_fanOut` — the completions of a request belong to its
  transactions.

## References

`SPEC_FULL.md`, section 4.5: the response is handed to every transaction behind
the request.
-/

namespace MemPort

/-- The completion that a call handed out, if it did and the lane took it. -/
def Contact.delivery? : Contact → Option (Nat × Response)
  | .delivered port response true => some (port, response)
  | _ => none

namespace Recorded

variable {σ : Type}

/-- The completions that were taken, in order, with their ports. -/
def deliveries (s : Recorded σ) : List (Nat × Response) := s.history.filterMap Contact.delivery?

/-- What one more call adds to what is read off the calls. -/
theorem filterMap_history {α : Type} (f : Contact → Option α) {s t : Recorded σ} {c : Contact}
    (h : t.contacts = c :: s.contacts) :
    t.history.filterMap f = s.history.filterMap f ++ (f c).toList := by
  unfold history
  rw [h, List.reverse_cons, List.filterMap_append]
  cases hc : f c <;> simp [hc]

theorem deliveries_cons (s : σ) (c : Contact) (cs : List Contact) :
    deliveries ⟨s, c :: cs⟩ = deliveries ⟨s, cs⟩ ++ (Contact.delivery? c).toList :=
  filterMap_history Contact.delivery? (s := ⟨s, cs⟩) rfl

theorem deliveries_congr {s t : Recorded σ} (h : s.contacts = t.contacts) :
    s.deliveries = t.deliveries := by
  unfold deliveries history
  rw [h]

/-- A call that hands nothing out adds no completion. -/
theorem deliveries_of_contact {s t : Recorded σ} {c : Contact} (hc : Contact.delivery? c = none)
    (h : t.contacts = c :: s.contacts) : t.deliveries = s.deliveries := by
  unfold deliveries
  rw [filterMap_history Contact.delivery? h, hc]
  exact List.append_nil _

end Recorded

/-! ### Steps that may fail -/

theorem exists_of_map_eq_ok {ε α β : Type} {f : α → β} {x : Except ε α} {b : β}
    (h : x.map f = .ok b) : ∃ a, x = .ok a ∧ f a = b := by
  cases x with
  | error e => cases h
  | ok a =>
    cases h
    exact ⟨a, rfl, rfl⟩

theorem exists_of_bind_eq_ok {ε α β : Type} {f : α → Except ε β} {x : Except ε α} {b : β}
    (h : x.bind f = .ok b) : ∃ a, x = .ok a ∧ f a = .ok b := by
  cases x with
  | error e => cases h
  | ok a => exact ⟨a, rfl, h⟩

/-! ### Completions of transactions -/

/-- A completion is that of a transaction, on its port: it has its tag, command
and address. -/
def Origin.Completes (o : Origin) (d : Nat × Response) : Prop :=
  d.1 = o.port ∧ d.2.tag = o.txn.tag ∧ d.2.cmd = o.txn.cmd ∧ d.2.addr = o.txn.addr

namespace Coalesced

theorem completes_completion (o : Origin) (data : Bytes) (success : Bool) :
    o.Completes (o.port, o.txn.completion data success) := ⟨rfl, rfl, rfl, rfl⟩

theorem completes_slice {line : Nat} {response : BackendResponse} {o : Origin}
    {d : Nat × Response} (h : slice line response o = .ok d) : o.Completes d := by
  unfold slice at h
  simp only at h
  split at h
  · cases h
    exact completes_completion _ _ _
  · cases h

/-- Completing one after the other is completing each. -/
theorem forall₂_mapM {α β ε : Type} {f : α → Except ε β} {as : List α} {bs : List β}
    (h : as.mapM f = .ok bs) : List.Forall₂ (fun a b => f a = .ok b) as bs := by
  induction as generalizing bs with
  | nil => cases h; exact .nil
  | cons a rest ih =>
    rw [List.mapM_cons] at h
    obtain ⟨b, ha, h⟩ := exists_of_bind_eq_ok h
    obtain ⟨bs', hrest, heq⟩ := exists_of_bind_eq_ok h
    cases heq
    exact .cons ha (ih hrest)

/-- **The completions of a request belong to its transactions**, one to each and
in order. -/
theorem completes_fanOut {c : Coalesced} {response : BackendResponse} {ds : List (Nat × Response)}
    (h : c.fanOut response = .ok ds) : List.Forall₂ Origin.Completes c.origins ds := by
  unfold fanOut at h
  split at h
  · exact (forall₂_mapM h).imp fun _ _ hslice => completes_slice hslice
  · cases h
    rw [List.forall₂_map_right_iff, List.forall₂_same]
    exact fun o _ => completes_completion _ _ _

/-- Completions fail only where the memory's answer is too short. -/
theorem fanOut_error {c : Coalesced} {response : BackendResponse} {v : InvariantViolation}
    (h : c.fanOut response = .error v) :
    ∃ length needed, v = .truncatedResponse response.id length needed := by
  unfold fanOut at h
  split at h
  · generalize c.origins = os at h
    -- the error is that of the first origin whose slice fails, so the induction
    -- is on the origins still to be cut
    induction os with
    | nil => cases h
    | cons o rest ih =>
      rw [List.mapM_cons] at h
      cases ho : slice c.line response o with
      | error e =>
        rw [ho] at h
        cases h
        unfold slice at ho
        simp only at ho
        -- a slice fails only by asking for bytes past the end of the data
        split at ho
        · cases ho
        · cases ho
          exact ⟨_, _, rfl⟩
      | ok d =>
        cases hrest : rest.mapM (slice c.line response) with
        | error e =>
          rw [ho, hrest] at h
          cases h
          exact ih hrest
        | ok ds =>
          rw [ho, hrest] at h
          cases h
  · cases h

end Coalesced

/-! ### Calls to recorded surroundings -/

section Calls

variable {σ : Type}

theorem deliveries_notifyRetry [Requestors σ] (port : Nat) (s : Recorded σ) :
    (Requestors.notifyRetry port s).value.deliveries = s.deliveries :=
  Recorded.deliveries_of_contact (c := .retried port) rfl rfl

theorem deliveries_receiveSnoop [Requestors σ] (lane : Nat) (snoop : Snoop) (s : Recorded σ) :
    (Requestors.receiveSnoop lane snoop s).value.2.deliveries = s.deliveries :=
  Recorded.deliveries_of_contact (c := .snooped lane snoop) rfl rfl

theorem Notified.deliveries_eq [Requestors σ] {s t : Recorded σ} (h : Notified s t) :
    t.deliveries = s.deliveries :=
  h.eq_of Recorded.deliveries deliveries_notifyRetry deliveries_receiveSnoop

/-- Offering a request is remembered with its answer. -/
theorem contacts_accept [Backend σ] {now : Nat} {request : BackendRequest} {s t : Recorded σ}
    {accepted : Bool} {notices : List Notice}
    (h : Backend.accept now request s = .ok ⟨(accepted, t), notices⟩) :
    t.contacts = .offered request accepted :: s.contacts ∧
      Backend.accept now request s.inner = .ok ⟨(accepted, t.inner), notices⟩ := by
  have hdef : Backend.accept now request s =
      (Backend.accept now request s.inner).map fun l => l.map fun r =>
        (r.1, (⟨r.2, .offered request r.1 :: s.contacts⟩ : Recorded σ)) := rfl
  rw [hdef] at h
  cases hacc : Backend.accept now request s.inner with
  | error a => rw [hacc] at h; cases h
  | ok l =>
    rw [hacc] at h
    cases h
    exact ⟨rfl, rfl⟩

/-- Offering a request hands nothing out, and is what the surroundings within do
with it. -/
theorem accept_recorded [Backend σ] {now : Nat} {request : BackendRequest} {s t : Recorded σ}
    {accepted : Bool} {notices : List Notice}
    (h : Backend.accept now request s = .ok ⟨(accepted, t), notices⟩) :
    t.deliveries = s.deliveries ∧
      Backend.accept now request s.inner = .ok ⟨(accepted, t.inner), notices⟩ := by
  obtain ⟨hcontacts, hinner⟩ := contacts_accept h
  exact ⟨Recorded.deliveries_of_contact rfl hcontacts, hinner⟩

theorem deliveries_notifyResponseRetry [Backend σ] (s : Recorded σ) :
    (Backend.notifyResponseRetry s).value.deliveries = s.deliveries :=
  Recorded.deliveries_of_contact (c := .responseRetried) rfl rfl

theorem contacts_accessFunctional [Backend σ] {request : BackendRequest} {s : Recorded σ}
    {l : Logged (BackendResponse × Recorded σ)} (h : Backend.accessFunctional request s = .ok l) :
    l.value.2.contacts = .performed request l.value.1 :: s.contacts := by
  have hdef : Backend.accessFunctional request s =
      (Backend.accessFunctional request s.inner).map fun l => l.map fun r =>
        (r.1, (⟨r.2, .performed request r.1 :: s.contacts⟩ : Recorded σ)) := rfl
  rw [hdef] at h
  cases hacc : Backend.accessFunctional request s.inner with
  | error a => rw [hacc] at h; cases h
  | ok l' =>
    rw [hacc] at h
    cases h
    rfl

theorem deliveries_accessFunctional [Backend σ] {request : BackendRequest} {s : Recorded σ}
    {l : Logged (BackendResponse × Recorded σ)}
    (h : Backend.accessFunctional request s = .ok l) : l.value.2.deliveries = s.deliveries :=
  Recorded.deliveries_of_contact rfl (contacts_accessFunctional h)

namespace Assembly

variable [Requestors σ] [Backend σ] {m m' : Assembly (Recorded σ)}

omit [Backend σ] in
theorem deliveries_deliver {port : Nat} {response : Response}
    (h : m.deliver port response = .ok true m') :
    m'.surroundings.deliveries = m.surroundings.deliveries ++ [(port, response)] := by
  obtain ⟨hanswer, rfl⟩ := settle_eq_ok h
  -- the record grows by one contact, whose verdict is what the requestor said
  have hcontacts : (Requestors.deliver port response m.surroundings).value.2.contacts =
      .delivered port response
        ((Requestors.deliver port response m.surroundings.inner).value.1.toOption
        == some true) :: m.surroundings.contacts := rfl
  have hinner : (Requestors.deliver port response m.surroundings.inner).value.1 = .ok true :=
    hanswer
  rw [hinner] at hcontacts
  simp only
  rw [Recorded.deliveries_congr (t := ⟨m.surroundings.inner,
    .delivered port response true :: m.surroundings.contacts⟩) hcontacts,
    Recorded.deliveries_cons]
  rfl

omit [Backend σ] in
/-- Completions that are all taken are handed out in order. -/
theorem deliveries_deliverAll {cs : List (Nat × Response)} (h : m.deliverAll cs = .ok () m') :
    m'.surroundings.deliveries = m.surroundings.deliveries ++ cs := by
  induction cs generalizing m with
  | nil => cases h; exact (List.append_nil _).symm
  | cons c rest ih =>
    obtain ⟨m₁, hd, hrest⟩ := deliverAll_cons_eq_ok h
    have hcount : (m₁.count .recordDelivery).surroundings = m₁.surroundings := rfl
    rw [ih hrest, hcount, deliveries_deliver hd, List.append_assoc]
    rfl

omit [Backend σ] in
/-- Handing completions out fails where a lane does not take one, or breaks a
contract. -/
theorem deliverAll_error {cs : List (Nat × Response)} {e : Failure}
    (h : m.deliverAll cs = .error e m') :
    (∃ a, e = .assertion a) ∨ ∃ port addr, e = .invariant (.deliveryRefused port addr) := by
  induction cs generalizing m with
  | nil => cases h
  -- this delivery breaks, or it is refused, or the failure is one of the rest
  | cons c rest ih =>
    obtain ⟨port, completion⟩ := c
    unfold deliverAll at h
    split at h
    · rename_i e' m₁ hd
      cases h
      unfold deliver settle at hd
      simp only at hd
      split at hd
      · cases hd
        exact Or.inl ⟨_, rfl⟩
      · cases hd
    · cases h
      exact Or.inr ⟨_, _, rfl⟩
    · exact ih h

end Assembly

end Calls

/-! ### What handing out leaves alone -/

namespace Assembly

variable {σ β : Type} [Requestors σ]

/-- A completion changes the surroundings alone, whether or not it is taken. -/
theorem left_deliver (m : Assembly σ) (port : Nat) (response : Response) :
    (m.deliver port response).left = { m with
      surroundings := (Requestors.deliver port response m.surroundings).value.2
      journal := m.journal.addAll (Requestors.deliver port response m.surroundings).notices } := by
  unfold deliver settle
  simp only
  split <;> rfl

section Kept

variable {P : Assembly σ → Prop}
  (hdeliver : ∀ m port response, P m → P (m.deliver port response).left)
  (hcount : ∀ m, P m → P (m.count .recordDelivery))

include hdeliver hcount

/-- What a completion and its count keep, completions keep, whether or not they
are all taken. -/
theorem deliverAll_keeps (m : Assembly σ) (cs : List (Nat × Response)) (h : P m) :
    P (m.deliverAll cs).left := by
  induction cs generalizing m with
  | nil => exact h
  | cons c rest ih =>
    obtain ⟨port, completion⟩ := c
    have hone := hdeliver m port completion h
    unfold deliverAll
    -- the state left behind is that of the delivery that failed, or of the rest
    split
    · rename_i hd
      rw [hd] at hone
      exact hone
    · rename_i hd
      rw [hd] at hone
      exact hone
    · rename_i m₁ hd
      rw [hd] at hone
      exact ih _ (hcount m₁ hone)

/-- What completions and the count of an answer keep, an answer keeps, if taking
its request out of flight does. -/
theorem answer_keeps {now : Nat} {response : BackendResponse}
    (hdrain : ∀ m, P m →
      P ((m.count .recordDrain).update fun a => { a with lastActive := now }))
    (m : Assembly σ) (hunknown : m.allocator.outstanding.get? response.id = none → P m)
    (htaken : ∀ n, P ((m.update fun a =>
      { a with outstanding := a.outstanding.erase response.id }).note n)) :
    P (m.answer now response).left := by
  unfold answer
  split
  · rename_i hnone
    exact hunknown hnone
  · rename_i request _
    simp only
    split
    · exact htaken _
    · rename_i completions _
      -- whether the deliveries succeed or not, `P` holds where they stop
      have hall := deliverAll_keeps hdeliver hcount _ completions
        (htaken (.responding response.id request.cmd request.line request.size))
      split
      · rename_i hd
        rw [hd] at hall
        exact hall
      · rename_i hd
        rw [hd] at hall
        exact hdrain _ hall

end Kept

/-- A part of the surroundings that a completion leaves alone, an answer leaves
alone. -/
theorem eq_of_answer (part : σ → β)
    (hdeliver : ∀ port response s, part (Requestors.deliver port response s).value.2 = part s)
    (m : Assembly σ) (now : Nat) (response : BackendResponse) :
    part (m.answer now response).left.surroundings = part m.surroundings := by
  refine answer_keeps (P := fun m' => part m'.surroundings = part m.surroundings)
    (fun m' port response h => ?_) (fun _ h => h) (fun _ h => h) m (fun _ => rfl) (fun _ => rfl)
  rw [left_deliver]
  exact (hdeliver port response m'.surroundings).trans h

end Assembly

/-! ### What an answer hands out -/

/-- What draining an answer hands out. -/
inductive Handed {σ : Type} (m : Assembly (Recorded σ)) (response : BackendResponse) :
    Except Failure Unit → Assembly (Recorded σ) → Prop
  /-- The completions of the request that it answers. -/
  | all {m' : Assembly (Recorded σ)} {request : Coalesced} {ds : List (Nat × Response)}
      (hrequest : m.allocator.outstanding.get? response.id = some request)
      (hds : request.fanOut response = .ok ds)
      (hdeliveries : m'.surroundings.deliveries = m.surroundings.deliveries ++ ds) :
      Handed m response (.ok ()) m'
  /-- Nothing, if it answers no request in flight. -/
  | nothing {m' : Assembly (Recorded σ)}
      (hrequest : m.allocator.outstanding.get? response.id = none)
      (hdeliveries : m'.surroundings.deliveries = m.surroundings.deliveries) :
      Handed m response (.error (.invariant (.unknownResponse response.id))) m'
  /-- Nothing, if it is too short. -/
  | short {m' : Assembly (Recorded σ)} {request : Coalesced} {length needed : Nat}
      (hrequest : m.allocator.outstanding.get? response.id = some request)
      (hds : request.fanOut response =
        .error (.truncatedResponse response.id length needed))
      (hdeliveries : m'.surroundings.deliveries = m.surroundings.deliveries) :
      Handed m response (.error (.invariant (.truncatedResponse response.id length needed))) m'
  /-- Some completions, if a lane would not take one. -/
  | refused {m' : Assembly (Recorded σ)} {port addr : Nat} :
      Handed m response (.error (.invariant (.deliveryRefused port addr))) m'
  /-- Some completions, if a lane broke a contract. -/
  | broken {m' : Assembly (Recorded σ)} {a : Assertion} :
      Handed m response (.error (.assertion a)) m'

section Answer

variable {σ : Type} [Requestors σ] [Backend σ]

omit [Backend σ] in
/-- **A drained answer hands out the completions of its request.** -/
theorem handed_answer (m : Assembly (Recorded σ)) (now : Nat) (response : BackendResponse) :
    Handed m response (m.answer now response).result (m.answer now response).left := by
  unfold Assembly.answer
  split
  · rename_i hnone
    -- no request has the identifier of this response
    exact .nothing hnone rfl
  · rename_i request hrequest
    simp only
    split
    · rename_i v hv
      obtain ⟨length, needed, rfl⟩ := Coalesced.fanOut_error hv
      exact .short hrequest hv rfl
    · rename_i ds hds
      split
      · rename_i e m₁ hdeliver
        -- the data was long enough, so the failure is that of a requestor
        rcases Assembly.deliverAll_error hdeliver with ⟨a, rfl⟩ | ⟨port, addr, rfl⟩
        · exact .broken
        · exact .refused
      · rename_i m₁ hdeliver
        have hdeliveries := Assembly.deliveries_deliverAll hdeliver
        exact .all hrequest hds hdeliveries

end Answer

end MemPort
