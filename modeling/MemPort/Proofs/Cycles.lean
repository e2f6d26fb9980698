import MemPort.Proofs.Wiring

/-!
# A cycle of the allocator

In a cycle the allocator drains the answers that are ready, drops expired locks,
takes its turns and checks progress.  Every step keeps what is known of the
plant, so the cycle goes through, unless the check of progress finds that a port
is starved, or the latencies of a generator are no longer a word.

## Main definitions

* `Assembly.turns` — the turns of the issue loop, each with the assembly
  before it.
* `Plant.incrementsIn` — the increments that a cycle performs.

## Main results

* `Wired.drain`, `Wired.issueLoop` — the response path and the issue path of a
  cycle.
* `Wired.tick` — the whole cycle.

## References

`SPEC_FULL.md`, sections 4.4 to 4.6 and 5: the order of a cycle of the
allocator.
-/

namespace MemPort

namespace Assembly

variable {σ : Type} [Requestors σ] [Backend σ]

/-- The turns of the issue loop that go through, each with the assembly before
it. -/
def turns (now issued : Nat) (m : Assembly σ) : List (Assembly σ × Turn) :=
  if m.allocator.backendPort.busy || m.allocator.config.maxIssuePerCycle ≤ issued then []
  else
    match _hturn : m.issueTurn now with
    | .error _ _ => []
    | .ok turn m' =>
        (m, turn) :: if _hon : turn.goesOn = true then turns now (issued + turn.cost) m' else []
termination_by m.allocator.weight
decreasing_by exact weight_issueTurn_lt _hturn _hon

end Assembly

/-- The increments that a cycle of the allocator performs. -/
def Plant.incrementsIn (m : Plant) (now : Nat) : Nat :=
  match m.drain now with
  | .error _ _ => 0
  | .ok () m' => total (((m'.sweepLocks now).turns now 0).map fun x => Plant.incrementsBy x.1 x.2)

/-- What may end a step at some time: the sum of the latencies of a generator is
no longer a word. -/
def Exhausted (w : Scenario) (now : Nat) (e : Failure) : Prop :=
  e = .assertion .overflow ∧ maxWord < min w.maxInflight now * now

namespace Assembly

variable {σ : Type} [Requestors σ] [Backend σ] {m m' : Assembly σ} {now issued : Nat}
  {turn : Turn}

/-- Where a turn is taken, the others follow it. -/
theorem turns_of_issueTurn
    (hgo : ¬ (m.allocator.backendPort.busy || m.allocator.config.maxIssuePerCycle ≤ issued) =
      true)
    (h : m.issueTurn now = .ok turn m') :
    m.turns now issued =
      (m, turn) :: if turn.goesOn = true then m'.turns now (issued + turn.cost) else [] := by
  rw [turns, if_neg hgo]
  split
  · rename_i herror
    rw [h] at herror
    cases herror
  · rename_i turn' m₁ hok
    rw [h] at hok
    cases hok
    split <;> rfl

end Assembly

namespace Wired

variable {w : Scenario} {now n t : Nat} {m : Plant} {rest : List (Nat × Response)}
  {cs : List (Nat × Nat × Response)}

/-! ### The response path -/

/-- **A completion is handed out.** -/
theorem deliver {port : Nat} {r : Response} (h : Wired w now m ((port, r) :: rest) n cs) :
    (∃ m', m.deliver port r = .ok true m' ∧ Wired w now m' rest n cs) ∨
      ∃ e m', m.deliver port r = .error e m' ∧ Exhausted w now e := by
  have hport : port < w.numPorts := h.consistent.port_lt (port, r) List.mem_cons_self
  have hlt : port < m.lanes.length := h.consistent.length_eq ▸ hport
  have hg := List.getElem?_eq_getElem hlt
  generalize m.lanes[port] = g at hg
  -- the delivery is one call of the generator, which answers or breaks
  have hcall : (Requestors.deliver port r m.surroundings).value =
      ((g.receive r).value.1.map fun _ => true,
        (⟨m.lanes.set port (g.receive r).value.2⟩, m.memory)) := by
    have hact : (m.surroundings.1.act port (·.receive r)).value =
        ((g.receive r).value.1, ⟨m.lanes.set port (g.receive r).value.2⟩) := by
      unfold Generators.act
      rw [show m.surroundings.1.lanes[port]? = some g from hg]
      rfl
    exact congrArg (fun x : Except Assertion Unit × Generators =>
      (x.1.map fun _ => true, (x.2, m.memory))) hact
  unfold Assembly.deliver Assembly.settle
  simp only [hcall]
  rcases h.consistent.receive hg with
    ⟨g', hvalue, hpending, hblocked, hconsistent⟩ | ⟨hbroken, hword⟩
  · rw [hvalue]
    refine Or.inl ⟨_, rfl, h.lineSize_eq, h.fault_eq, ?_, h.flight, ?_⟩
    · exact h.handshake.trans (map_set_of_eq hg hblocked).symm
    · refine hconsistent.of_waiting fun q _ => ?_
      have hsame := congrArg (·[q]?) (map_set_of_eq (f := Generator.pending) hg hpending)
      simp only [List.getElem?_map] at hsame
      have hwaiting : (m.lanes.set port g')[q]?.bind (·.pending) =
          m.lanes[q]?.bind (·.pending) := by
        have hbind : ∀ o : Option Generator, o.bind (·.pending) =
            (o.map Generator.pending).join :=
          fun o => by cases o <;> rfl
        rw [hbind, hbind, hsame]
      exact congrArg (fun o => m.allocator.queuedOn q ++ Option.toList o) hwaiting
  · rw [hbroken]
    exact Or.inr ⟨_, _, rfl, rfl, hword⟩

/-- Completions are handed out one after the other. -/
theorem deliverAll {xs : List (Nat × Response)} (h : Wired w now m xs n cs) :
    (∃ m', m.deliverAll xs = .ok () m' ∧ Wired w now m' [] n cs) ∨
      ∃ e m', m.deliverAll xs = .error e m' ∧ Exhausted w now e := by
  induction xs generalizing m with
  | nil => exact Or.inl ⟨m, rfl, h⟩
  | cons x rest ih =>
    obtain ⟨port, r⟩ := x
    unfold Assembly.deliverAll
    rcases h.deliver with ⟨m₁, hdelivered, h₁⟩ | ⟨e, m₁, hdelivered, he⟩
    · rw [hdelivered]
      exact ih (h₁.of_same rfl rfl rfl rfl)
    · rw [hdelivered]
      exact Or.inr ⟨e, m₁, rfl, he⟩

/-- **An answer is drained.** -/
theorem answer {response : BackendResponse} {port : BackendPort} (h : Wired w now m [] n cs)
    (hdrain : m.allocator.backendPort.drain? t = some (response, port)) :
    (∃ m', (m.update fun a => { a with backendPort := port }).answer t response = .ok () m' ∧
      Wired w now m' [] n cs) ∨
      ∃ e m', (m.update fun a => { a with backendPort := port }).answer t response =
        .error e m' ∧
        Exhausted w now e := by
  have hanswers := Allocator.answers_drain? hdrain
  have hflight := h.flight
  unfold Plant.answers at hflight
  rw [hanswers] at hflight
  have hout : ({ m.allocator.books with outstanding := m.allocator.outstanding.erase response.id } :
      Books).outstanding = m.allocator.books.outstanding.erase response.id := rfl
  obtain ⟨request, ds, hget, hcompletes, hdue, hflight'⟩ := hflight.answered hout rfl rfl
  unfold Assembly.answer
  simp only [Assembly.allocator_update]
  rw [show m.allocator.outstanding.get? response.id = some request from hget]
  simp only [hcompletes]
  have hconsistent := h.consistent
  rw [List.nil_append, hdue] at hconsistent
  -- the request is out of flight, and its completions are the first ones due
  have hdrained : Wired w now (((m.update fun a => { a with backendPort := port }).update fun a =>
      { a with outstanding := a.outstanding.erase response.id }).note
        (.responding response.id request.cmd request.line request.size)) ds n cs :=
    ⟨h.lineSize_eq, h.fault_eq, h.handshake, hflight', hconsistent⟩
  rcases hdrained.deliverAll with ⟨m', hdelivered, h'⟩ | ⟨e, m', hdelivered, he⟩
  · rw [hdelivered]
    exact Or.inl ⟨_, rfl, h'.of_same rfl rfl rfl rfl⟩
  · rw [hdelivered]
    exact Or.inr ⟨e, m', rfl, he⟩

theorem drainLoop (h : Wired w now m [] n cs) (drained : Bool) :
    (∃ b m', m.drainLoop t drained = .ok b m' ∧ Wired w now m' [] n cs) ∨
      ∃ e m', m.drainLoop t drained = .error e m' ∧ Exhausted w now e := by
  fun_induction Assembly.drainLoop t drained m with
  -- the loop ends when nothing is left to drain, or a generator breaks
  | case1 drained m hnone => exact Or.inl ⟨drained, m, rfl, h⟩
  | case2 drained m response port hdrain e m' herror =>
    rcases h.answer hdrain with ⟨m₁, hok, -⟩ | ⟨e', m₁, herror', he⟩
    · rw [herror] at hok
      cases hok
    · rw [herror] at herror'
      cases herror'
      exact Or.inr ⟨e, m', rfl, he⟩
  | case3 drained m response port hdrain m' hok ih =>
    rcases h.answer hdrain with ⟨m₁, hok', h'⟩ | ⟨e', m₁, herror, -⟩
    · rw [hok] at hok'
      cases hok'
      exact ih h'
    · rw [hok] at herror
      cases herror

/-- **The response path of a cycle.** -/
theorem drain (h : Wired w now m [] n cs) :
    (∃ m', m.drain t = .ok () m' ∧ Wired w now m' [] n cs) ∨
      ∃ e m', m.drain t = .error e m' ∧ Exhausted w now e := by
  unfold Assembly.drain
  rcases h.drainLoop (t := t) false with ⟨b, m', hok, h'⟩ | ⟨e, m', herror, he⟩
  · rw [hok]
    cases b with
    | false => exact Or.inl ⟨m', rfl, h'⟩
    | true =>
      refine Or.inl ⟨_, rfl, ?_⟩
      unfold Assembly.settleResponses
      simp only
      split
      · exact h'.of_core rfl h'.handshake rfl ⟨rfl, rfl, rfl⟩ h'.fault_eq rfl
      · exact h'.of_same rfl rfl rfl rfl
  · rw [herror]
    exact Or.inr ⟨e, m', rfl, he⟩

/-! ### The issue path -/

/-- **The turns of a cycle go through.** -/
theorem issueLoop (h : Wired w now m [] n cs) (issued : Nat) :
    ∃ m' cs', m.issueLoop t issued = .ok () m' ∧ Wired w now m' []
      (n + total ((m.turns t issued).map fun x => Plant.incrementsBy x.1 x.2)) cs' := by
  fun_induction Assembly.issueLoop t issued m generalizing n cs with
  | case1 issued m hstop =>
    unfold Assembly.turns
    rw [if_pos hstop]
    exact ⟨m, cs, rfl, h⟩
  | case2 issued m hstop e m' herror =>
    have hturned : Assembly.Turned m t (m.issueTurn t).result (m.issueTurn t).left :=
      Assembly.turned_issueTurn (Allocator.not_busy hstop)
    rw [herror] at hturned
    -- a wired system has no turn that fails
    obtain ⟨turn, cs', hok, -⟩ := h.turned hturned
    cases hok
  | case3 issued m hstop turn m' hok hon ih =>
    obtain ⟨_, cs', hturn, h'⟩ :=
      h.turned (Assembly.turned_of_issueTurn (Allocator.not_busy hstop) hok)
    cases hturn
    obtain ⟨m'', cs'', hrest, h''⟩ := ih h'
    refine ⟨m'', cs'', hrest, ?_⟩
    rw [Assembly.turns_of_issueTurn hstop hok, if_pos hon, List.map_cons, total, ← Nat.add_assoc]
    exact h''
  | case4 issued m hstop turn m' hok hon =>
    obtain ⟨_, cs', hturn, h'⟩ :=
      h.turned (Assembly.turned_of_issueTurn (Allocator.not_busy hstop) hok)
    cases hturn
    refine ⟨m', cs', rfl, ?_⟩
    rw [Assembly.turns_of_issueTurn hstop hok, if_neg hon]
    exact h'

/-! ### The whole cycle -/

theorem checkProgress (h : Wired w now m [] n cs) :
    (∃ m', m.checkProgress t = .ok () m' ∧ Wired w now m' [] n cs) ∨
      ∃ l m', m.checkProgress t = .error (.liveness l) m' := by
  unfold Assembly.checkProgress
  split
  · exact Or.inl ⟨m, rfl, h⟩
  · simp only
    split
    · exact Or.inr ⟨_, _, rfl⟩
    · exact Or.inl ⟨_, rfl, h.of_same rfl rfl rfl rfl⟩

/-- **A cycle of the allocator goes through**, unless a port is starved or
latencies are exhausted. -/
theorem tick (h : Wired w now m [] n cs) :
    (∃ m' cs', m.tick t = .ok () m' ∧ Wired w now m' [] (n + m.incrementsIn t) cs') ∨
      ∃ e m', m.tick t = .error e m' ∧ ((∃ l, e = .liveness l) ∨ Exhausted w now e) := by
  have hlanes : Requestors.lanes m.surroundings = m.allocator.ports.length :=
    h.consistent.length_eq.trans h.length_ports.symm
  unfold Assembly.tick
  rw [if_neg (not_not.mpr hlanes)]
  unfold Plant.incrementsIn
  rcases h.drain (t := t) with ⟨m₁, hdrained, h₁⟩ | ⟨e, m₁, hdrained, he⟩
  · obtain ⟨m₂, cs₂, hissued, h₂⟩ := (h₁.swept t).issueLoop (t := t) 0
    rw [hdrained]
    simp only [Assembly.issue, hissued]
    rcases h₂.checkProgress (t := t) with ⟨m₃, hchecked, h₃⟩ | ⟨l, m₃, hchecked⟩
    · exact Or.inl ⟨m₃, cs₂, hchecked, h₃⟩
    · exact Or.inr ⟨_, m₃, hchecked, Or.inl ⟨l, rfl⟩⟩
  · rw [hdrained]
    exact Or.inr ⟨e, m₁, rfl, Or.inr he⟩

end Wired

end MemPort
