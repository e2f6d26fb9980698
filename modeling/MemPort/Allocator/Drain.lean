import MemPort.Allocator.Assembly

/-!
# Draining answers

In every cycle the allocator drains the answers whose latency has passed and
hands a completion to every transaction behind them.  Requestors have to take
their completions.  Where room was made for an answer that was refused, the
memory is told to offer it again.

## Main definitions

* `Assembly.answer` — hand out one answer.
* `Assembly.drainLoop`, `Assembly.settleResponses`, `Assembly.drain` — all
  answers that are ready.

## Main results

* `Assembly.answer_eq_ok` — what has happened where an answer is handed out.

## References

`SPEC_FULL.md`, section 4.5: the response path; section 10.6, item 1: the retry
of the memory.
-/

namespace MemPort

namespace Assembly

variable {σ : Type} [Requestors σ] [Backend σ]

/-- Hand completions to their lanes, until one is not taken. -/
def deliverAll (m : Assembly σ) : List (Nat × Response) → Outcome σ Unit
  | [] => .ok () m
  | (port, completion) :: rest =>
      match m.deliver port completion with
      | .error e m => .error e m
      | .ok false m => .error (.invariant (.deliveryRefused port completion.addr)) m
      | .ok true m => (m.count .recordDelivery).deliverAll rest

/-- Hand out an answer of the memory. -/
def answer (m : Assembly σ) (now : Nat) (response : BackendResponse) : Outcome σ Unit :=
  match m.allocator.outstanding.get? response.id with
  | none => .error (.invariant (.unknownResponse response.id)) m
  | some request =>
      -- out of flight even if a completion is then refused
      let m := m.update fun a => { a with outstanding := a.outstanding.erase response.id }
      let m := m.note (.responding response.id request.cmd request.line request.size)
      match request.fanOut response with
      | .error v => .error (.invariant v) m
      | .ok completions =>
          match m.deliverAll completions with
          | .error e m => .error e m
          | .ok () m => .ok () ((m.count .recordDrain).update fun a => { a with lastActive := now })

/-- Tell the memory that there is room again for an answer. -/
def notifyResponseRetry (m : Assembly σ) : Assembly σ :=
  let l := Backend.notifyResponseRetry m.surroundings
  { m with surroundings := l.value, journal := m.journal.addAll l.notices }

/-! ### Handing out that goes through -/

omit [Backend σ] in
/-- The first completion is taken and counted, and then the others. -/
theorem deliverAll_cons_eq_ok {m m' : Assembly σ} {port : Nat} {completion : Response}
    {rest : List (Nat × Response)} (h : m.deliverAll ((port, completion) :: rest) = .ok () m') :
    ∃ m₁, m.deliver port completion = .ok true m₁ ∧
      (m₁.count .recordDelivery).deliverAll rest = .ok () m' := by
  unfold deliverAll at h
  split at h
  · cases h
  · cases h
  · rename_i m₁ hdelivered
    exact ⟨m₁, hdelivered, h⟩

omit [Backend σ] in
/-- The answer is for a request in flight, whose completions are all taken. -/
theorem answer_eq_ok {m m' : Assembly σ} {now : Nat} {response : BackendResponse}
    (h : m.answer now response = .ok () m') : ∃ request completions m₁,
      m.allocator.outstanding.get? response.id = some request ∧
      request.fanOut response = .ok completions ∧
      ((m.update fun a => { a with outstanding := a.outstanding.erase response.id }).note
        (.responding response.id request.cmd request.line request.size)).deliverAll completions =
          .ok () m₁ ∧
      m' = (m₁.count .recordDrain).update fun a => { a with lastActive := now } := by
  unfold answer at h
  split at h
  · cases h
  · rename_i request hrequest
    simp only at h
    split at h
    · cases h
    · rename_i completions hcompletions
      split at h
      · cases h
      · rename_i m₁ hdelivered
        cases h
        exact ⟨request, completions, m₁, hrequest, hcompletions, hdelivered, rfl⟩

/-! ### Handing out leaves the queue of answers alone -/

omit [Backend σ] in
theorem backendPort_deliverAll {m m' : Assembly σ} {cs : List (Nat × Response)}
    (h : m.deliverAll cs = .ok () m') : m'.allocator.backendPort = m.allocator.backendPort := by
  induction cs generalizing m with
  | nil => cases h; rfl
  | cons c rest ih =>
    obtain ⟨m₁, hd, hrest⟩ := deliverAll_cons_eq_ok h
    have hcount : (m₁.count .recordDelivery).allocator.backendPort =
        m₁.allocator.backendPort := rfl
    rw [ih hrest, hcount, allocator_settle hd]

omit [Backend σ] in
theorem backendPort_answer {m m' : Assembly σ} {now : Nat} {response : BackendResponse}
    (h : m.answer now response = .ok () m') :
    m'.allocator.backendPort = m.allocator.backendPort := by
  obtain ⟨request, completions, m₁, -, -, hd, rfl⟩ := answer_eq_ok h
  have hport := backendPort_deliverAll hd
  exact hport

/-! ### The loop -/

omit [Backend σ] in
theorem pending_drain_lt {m m' : Assembly σ} {now : Nat} {response : BackendResponse}
    {port : BackendPort} (hd : m.allocator.backendPort.drain? now = some (response, port))
    (h : (m.update fun a => { a with backendPort := port }).answer now response = .ok () m') :
    m'.allocator.backendPort.pending < m.allocator.backendPort.pending := by
  rw [backendPort_answer h]
  have := (BackendPort.pending_drain? hd).1
  simp only [allocator_update]
  omega

/-- Drain answers while the oldest is ready; the result says whether there were
any. -/
def drainLoop (now : Nat) (drained : Bool) (m : Assembly σ) : Outcome σ Bool :=
  match _hd : m.allocator.backendPort.drain? now with
  | none => .ok drained m
  | some (response, port) =>
      match _ha : (m.update fun a => { a with backendPort := port }).answer now response with
      | .error e m' => .error e m'
      | .ok () m' => drainLoop now true m'
termination_by m.allocator.backendPort.pending
decreasing_by exact pending_drain_lt _hd _ha

/-- Settle the debt of a retry: the memory may offer an answer again that was
refused. -/
def settleResponses (m : Assembly σ) : Assembly σ :=
  let owed := m.allocator.backendPort.takeRetry
  let m := m.update fun a => { a with backendPort := owed.2 }
  if owed.1 then (m.note .responseRetry).notifyResponseRetry else m

omit [Requestors σ] in
theorem allocator_settleResponses (m : Assembly σ) : m.settleResponses.allocator =
    { m.allocator with backendPort := m.allocator.backendPort.takeRetry.2 } := by
  unfold settleResponses
  simp only
  split <;> rfl

/-- The response path of a cycle. -/
def drain (m : Assembly σ) (now : Nat) : Outcome σ Unit :=
  match m.drainLoop now false with
  | .error e m => .error e m
  | .ok false m => .ok () m
  | .ok true m => .ok () m.settleResponses

end Assembly

end MemPort
