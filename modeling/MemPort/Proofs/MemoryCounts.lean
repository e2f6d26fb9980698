import MemPort.Proofs.Happenings

/-!
# What the memory has counted

A memory counts the requests that it takes and the answers that it gives away;
the others it still holds back.  It also counts the store-conditionals without
effect.  As long as it finds nothing wrong, an answer tells of a failure only if
it is that of such a store-conditional, and the answer of one is handed to the
generator that made it.  So those that the generators were not told of yet can
be read off the answers on their way.

## Main definitions

* `Asked` — every answer on its way is for a request in flight.
* `Serves` — what the memory has counted.

## Main results

* `Coalesced.failures_fanOut` — the completion that tells of a
  store-conditional without effect.
* `Serves.turned`, `Serves.answered` — a turn is taken, and an answer is
  handed out.

## References

`SPEC_FULL.md`, section 10.7: the counters of the memory.
-/

namespace MemPort

/-! ### Answers on their way -/

/-- Every answer on its way is for a request in flight. -/
structure Asked (out : AscMap Coalesced) (answers : List BackendResponse) : Prop where
  /-- Only loads share a request. -/
  alone : ∀ id request, out.get? id = some request → request.cmd ≠ .read →
    request.folded = []
  /-- Every answer is for a request, and only a store-conditional may have had
  no effect. -/
  asked : ∀ answer ∈ answers, ∃ request, out.get? answer.id = some request ∧
    (answer.success = false → request.cmd = .storeCond)
  /-- A request has one answer. -/
  nodup : (answers.map (·.id)).Nodup

namespace Asked

variable {out : AscMap Coalesced} {answers : List BackendResponse} {answer : BackendResponse}

/-- A request goes out, and its answer is on its way. -/
theorem sent {request : Coalesced} (h : Asked out answers) (hfresh : out.get? answer.id = none)
    (halone : request.cmd ≠ .read → request.folded = [])
    (hfails : answer.success = false → request.cmd = .storeCond) :
    Asked (out.insert answer.id request) (answers ++ [answer]) := by
  -- no earlier answer has the identifier, which is not in flight
  have hother : ∀ x ∈ answers, answer.id ≠ x.id := by
    intro x hx heq
    obtain ⟨r, hr, -⟩ := h.asked x hx
    rw [← heq, hfresh] at hr
    cases hr
  refine ⟨fun id r hr => ?_, fun x hx => ?_, ?_⟩
  · rw [AscMap.get?_insert] at hr
    split at hr
    · cases hr
      exact halone
    · exact h.alone id r hr
  · rcases List.mem_append.mp hx with hx | hx
    · obtain ⟨r, hr, hcmd⟩ := h.asked x hx
      refine ⟨r, ?_, hcmd⟩
      rw [AscMap.get?_insert, if_neg (hother x hx)]
      exact hr
    · cases List.mem_singleton.mp hx
      refine ⟨request, ?_, hfails⟩
      rw [AscMap.get?_insert, if_pos rfl]
  · rw [List.map_append, List.map_singleton]
    refine List.nodup_append.mpr ⟨h.nodup, List.pairwise_singleton _ _, fun a ha b hb => ?_⟩
    obtain ⟨x, hx, rfl⟩ := List.mem_map.mp ha
    rw [List.mem_singleton.mp hb]
    exact (hother x hx).symm

/-- Loads join one in flight. -/
theorem folded {id : Nat} {request pending merged : Coalesced} (h : Asked out answers)
    (hget : out.get? id = some pending) (hmerged : pending.absorb? request = some merged) :
    Asked (out.insert id merged) answers := by
  obtain ⟨-, hcmd, -⟩ := Coalesced.origins_absorb? hmerged
  refine ⟨fun k r hr hother => ?_, fun x hx => ?_, h.nodup⟩
  · rw [AscMap.get?_insert] at hr
    split at hr
    · cases hr
      unfold Coalesced.absorb? at hmerged
      split at hmerged
      · rename_i hjoins
        rw [Bool.and_eq_true, Bool.and_eq_true] at hjoins
        -- what may be joined is a load, which `alone` does not speak of
        exact absurd (hcmd.trans ((Command.isCoalescable_iff _).mp hjoins.1.1)) hother
      · cases hmerged
    · exact h.alone k r hr hother
  · obtain ⟨r, hr, hfails⟩ := h.asked x hx
    rw [AscMap.get?_insert]
    by_cases heq : id = x.id
    · rw [← heq, hget] at hr
      cases hr
      exact ⟨merged, if_pos heq, fun hfailure => hcmd.trans (hfails hfailure)⟩
    · exact ⟨r, (if_neg heq).trans hr, hfails⟩

/-- The oldest answer is drained. -/
theorem drained (h : Asked out (answer :: answers)) : Asked (out.erase answer.id) answers := by
  obtain ⟨hfresh, hnodup⟩ := List.nodup_cons.mp h.nodup
  refine ⟨fun id r hr => ?_, fun x hx => ?_, hnodup⟩
  · rw [AscMap.get?_erase] at hr
    split at hr
    · cases hr
    · exact h.alone id r hr
  · obtain ⟨r, hr, hfails⟩ := h.asked x (List.mem_cons_of_mem _ hx)
    refine ⟨r, ?_, hfails⟩
    rw [AscMap.get?_erase, if_neg fun heq => hfresh (List.mem_map.mpr ⟨x, hx, heq.symm⟩)]
    exact hr

/-- Where no request is in flight, no answer is on its way. -/
theorem eq_nil (h : Asked out answers) (hout : out.entries = []) : answers = [] := by
  cases answers with
  | nil => rfl
  | cons x rest =>
    obtain ⟨r, hr, -⟩ := h.asked x List.mem_cons_self
    exact absurd hout (AscMap.entries_ne_nil hr)

end Asked

/-- **An answer that tells of a failure completes one store-conditional**, and
the others complete nothing that failed. -/
theorem Coalesced.failures_fanOut {c : Coalesced} {response : BackendResponse}
    {cs : List (Nat × Response)} (h : c.fanOut response = .ok cs)
    (halone : c.cmd ≠ .read → c.folded = [])
    (hfails : response.success = false → c.cmd = .storeCond) :
    cs.countP (!·.2.success) = (!response.success).toNat ∧
      ∀ d ∈ cs, d.2.success = false → d.1 = c.first.port ∧ d.2.tag = c.first.txn.tag ∧
        c.first.txn.cmd = .storeCond := by
  unfold fanOut at h
  split at h
  · rename_i hread
    -- the slices of a load all report success
    have hall : ∀ d ∈ cs, d.2.success = true := by
      intro d hd
      obtain ⟨o, -, hslice⟩ := exists_of_forall₂ (forall₂_mapM h) hd
      unfold slice at hslice
      simp only at hslice
      split at hslice
      · cases hslice
        rfl
      · cases hslice
    have hsuccess : response.success = true := by
      cases hs : response.success with
      | true => rfl
      | false =>
        rw [hfails hs] at hread
        cases hread
    refine ⟨?_, fun d hd hfailure => ?_⟩
    · rw [hsuccess, List.countP_eq_zero.mpr]
      · rfl
      · intro d hd
        rw [hall d hd]
        exact Bool.false_ne_true
    · cases (hall d hd).symm.trans hfailure
  · rename_i hother
    -- anything else has one origin, which gets the answer as it is
    have horigins : c.origins = [c.first] :=
      congrArg (c.first :: ·) (halone (mt (Command.isCoalescable_iff _).mpr hother))
    cases h
    rw [horigins]
    refine ⟨?_, fun d hd hfailure => ?_⟩
    · cases response.success <;> simp [Transaction.completion]
    · cases List.mem_singleton.mp hd
      exact ⟨rfl, rfl, hfails hfailure⟩

/-! ### What the memory counts -/

theorem DelayedMemory.stats_of_new {config : MemoryConfig} {d : DelayedMemory}
    (h : DelayedMemory.new config = .ok d) : d.stats = {} := by
  obtain ⟨-, memory, inflight, -, -, rfl⟩ := new_eq_ok h
  rfl

/-- What the memory has counted while some requests went out, and some
store-conditionals without effect were told to generators. -/
structure Serves (sent failures : Nat) (m : Plant) : Prop where
  /-- It took all requests that went out. -/
  accepted : m.memory.stats.accepted = sent
  /-- It gave their answers away, or holds them back. -/
  responses : m.memory.stats.responses + m.memory.heldBack.length = m.memory.stats.accepted
  /-- Every answer on its way is for a request in flight. -/
  asked : Asked m.allocator.outstanding m.answers
  /-- Store-conditionals without effect were told to a generator, or their
  answers are on their way. -/
  scFailures : m.memory.stats.scFailures = failures + m.answers.countP (!·.success)

namespace Serves

variable {n k now : Nat} {m m' : Plant}

/-- Where the memory and the answers stay, only the requests that they are for
can change. -/
theorem of_asked (h : Serves n k m) (hmemory : m'.memory = m.memory)
    (hanswers : m'.allocator.answers = m.allocator.answers)
    (hasked : Asked m'.allocator.outstanding m.answers) : Serves n k m' := by
  have hanswers : m'.answers = m.answers := Plant.answers_congr hmemory hanswers
  refine ⟨?_, ?_, ?_, ?_⟩
  · rw [hmemory]
    exact h.accepted
  · rw [hmemory]
    exact h.responses
  · rw [hanswers]
    exact hasked
  · rw [hmemory, hanswers]
    exact h.scFailures

/-- The generators are not concerned, nor is what is queued. -/
theorem congr (h : Serves n k m) (hmemory : m'.memory = m.memory)
    (hout : m'.allocator.outstanding = m.allocator.outstanding)
    (hanswers : m'.allocator.answers = m.allocator.answers) : Serves n k m' := by
  refine h.of_asked hmemory hanswers ?_
  rw [hout]
  exact h.asked

theorem rests (h : Serves n k m) (hrests : m.Rests m') : Serves n k m' := by
  have hout : m'.allocator.outstanding = m.allocator.outstanding :=
    congrArg Books.outstanding hrests.books
  refine ⟨hrests.accepted.trans h.accepted, ?_, ?_, ?_⟩
  · rw [hrests.responses, hrests.accepted]
    exact h.responses
  · rw [hout, hrests.answers]
    exact h.asked
  · rw [hrests.scFailures, hrests.answers]
    exact h.scFailures

/-- The memory takes a request, and finds nothing wrong with it. -/
theorem sends {granted : Nat} {sent : BackendRequest} {request : Coalesced} (h : Serves n k m)
    (hsends : Assembly.Sends m m' now granted sent request)
    (halone : request.cmd ≠ .read → request.folded = []) (hclean : m'.memory.fault = none) :
    Serves (n + 1) k m' := by
  obtain ⟨s, notices, haccept, hnotified⟩ := hsends.accepted
  obtain ⟨ports, stats, locks, -, ha⟩ := hsends.allocator
  have hmemory : m'.memory = s.2 := hnotified.hears.2
  have haccept : m.memory.accept now sent = .ok ⟨(true, s.2), notices⟩ := accept_pair haccept
  -- the memory did not fault, so it performed the request
  obtain ⟨answer, e, hperform⟩ := DelayedMemory.perform_of_accept haccept (hmemory ▸ hclean)
  obtain ⟨hperformed, hfails⟩ := DelayedMemory.stats_perform hperform
  have hid : answer.id = m.allocator.nextId := by
    rw [(DelayedMemory.of_perform hperform).1, hsends.sent_eq, Coalesced.id_toBackend]
  have hheld : m'.memory.heldBack = m.memory.heldBack ++ [answer] := by
    rw [hmemory]
    exact (DelayedMemory.accept_accepted haccept hperform).2
  have hstats : m'.memory.stats = { m.memory.stats with
      accepted := m.memory.stats.accepted + 1
      scFailures := m.memory.stats.scFailures + (!answer.success).toNat } := by
    obtain ⟨inflight, -, hs⟩ := DelayedMemory.eq_of_accepted haccept hperform
    rw [hmemory, hs, hperformed]
  have hanswers : m'.answers = m.answers ++ [answer] := by
    unfold Plant.answers
    rw [hheld, ha, List.append_assoc]
    rfl
  have hresponses := h.responses
  have hfailures := h.scFailures
  refine ⟨?_, ?_, ?_, ?_⟩
  · rw [hstats]
    exact congrArg (· + 1) h.accepted
  · rw [hstats, hheld, List.length_append, List.length_singleton]
    simp only
    omega
  · rw [hanswers, ha, ← hid]
    refine h.asked.sent (hid ▸ hsends.fresh) halone fun hfailure => ?_
    have hcmd := hfails hfailure
    rw [hsends.sent_eq, Coalesced.cmd_toBackend] at hcmd
    exact hcmd
  · rw [hstats, hanswers, List.countP_append, List.countP_singleton]
    cases hs : answer.success <;> simp <;> omega

/-- **A turn is taken**, in which the memory finds nothing wrong. -/
theorem turned {turn : Turn} (h : Serves n k m) (hturned : m.Turned now (.ok turn) m')
    (hclean : m'.memory.fault = none) :
    Serves (n + (Event.turned now (.ok turn)).sent.length) k m' := by
  cases hturned with
  | idle _ => exact h
  | parked _ _ ha _ hs =>
    obtain ⟨p, stats, -, ha⟩ := ha
    refine h.congr (congrArg Prod.snd hs) ?_ ?_
    · rw [ha]
    · rw [ha]
      rfl
  | @served m₁ _ _ _ request _ hcleared hformed hserved =>
    have h₁ : Serves n k m₁ := by
      obtain ⟨c, table, ports, stats, -, -, -, ha⟩ := hcleared.allocator
      refine h.congr (congrArg Prod.snd hcleared.surroundings) ?_ ?_
      · rw [ha]
      · rw [ha]
        rfl
    cases hserved with
    -- a refusal counts for the memory, but not among what it took
    | refused hrefuses =>
      obtain ⟨notices, haccept⟩ := hrefuses.refused
      obtain ⟨stats, ha⟩ := hrefuses.allocator
      have hmemory : m'.memory = _ := DelayedMemory.eq_of_refused (accept_pair haccept)
      have hanswers : m'.answers = Plant.answers m₁ := by
        unfold Plant.answers
        rw [hmemory, ha]
        rfl
      refine ⟨?_, ?_, ?_, ?_⟩
      · rw [hmemory]
        exact h₁.accepted
      · rw [hmemory]
        exact h₁.responses
      · rw [hanswers, ha]
        exact h₁.asked
      · rw [hmemory, hanswers]
        exact h₁.scFailures
    | sent hsends _ =>
      exact h₁.sends hsends (fun hcmd => hformed.folded_eq_nil (hformed.cmd_eq ▸ hcmd)) hclean
    | folded hfolds _ =>
      obtain ⟨pending, merged, ports, stats, hget, hmerged, ha⟩ := hfolds.allocator
      refine h₁.of_asked hfolds.surroundings.hears.2 ?_ ?_
      · rw [ha]
        rfl
      · rw [ha]
        exact h₁.asked.folded hget hmerged

/-- **An answer is handed out.** -/
theorem answered {response : BackendResponse} {port : BackendPort} (h : Serves n k m)
    (hdrain : m.allocator.backendPort.drain? now = some (response, port))
    (hanswer : (m.update fun a => { a with backendPort := port }).answer now response = .ok () m') :
    Serves n (k + (!response.success).toNat) m' := by
  obtain ⟨request, -, ha⟩ := Assembly.allocator_answer hanswer
  obtain ⟨_, -, -, -, hmemory⟩ := Plant.takes_of_answer hanswer
  -- the answer drained is the first of those on their way
  have hanswers : m.answers = response :: m'.answers := by
    unfold Plant.answers
    rw [Allocator.answers_drain? hdrain, hmemory, ha]
    rfl
  have hasked := h.asked
  have hfailures := h.scFailures
  rw [hanswers] at hasked hfailures
  rw [List.countP_cons] at hfailures
  refine ⟨?_, ?_, ?_, ?_⟩
  · rw [hmemory]
    exact h.accepted
  · rw [hmemory]
    exact h.responses
  · rw [ha]
    exact hasked.drained
  · rw [hmemory, hfailures]
    cases response.success <;> simp only [Bool.not_true, Bool.not_false, Bool.toNat_true,
      Bool.toNat_false, Bool.false_eq_true, if_true, if_false] <;> omega

/-- A new memory has counted nothing. -/
theorem of_new {allocator : AllocatorConfig} {memory : MemoryConfig}
    (hallocator : Allocator.new allocator = .ok m.allocator)
    (hmemory : DelayedMemory.new memory = .ok m.memory) : Serves 0 0 m := by
  obtain ⟨-, -, -, hheld, -, -⟩ := DelayedMemory.of_new hmemory
  have hstats := DelayedMemory.stats_of_new hmemory
  have hanswers : m.answers = [] := by
    unfold Plant.answers
    rw [hheld, (Allocator.eq_of_new hallocator).2]
    rfl
  refine ⟨?_, ?_, ?_, ?_⟩
  · rw [hstats]
  · rw [hstats, hheld]
    rfl
  · rw [hanswers, (Allocator.eq_of_new hallocator).2]
    exact ⟨nofun, nofun, List.nodup_nil⟩
  · rw [hstats, hanswers]
    rfl

end Serves

/-- What the memory found wrong before a turn stays wrong. -/
theorem Plant.fault_of_turned {m m' : Plant} {now : Nat} {turn : Turn}
    (h : m.Turned now (.ok turn) m') (hclean : m'.memory.fault = none) : m.memory.fault = none := by
  cases h with
  | idle _ => exact hclean
  | parked _ _ _ _ hs => exact (congrArg (·.2.fault) hs).symm.trans hclean
  | @served m₁ _ _ _ _ _ hcleared _ hserved =>
    refine (congrArg (·.2.fault) hcleared.surroundings).symm.trans ?_
    cases hserved with
    | refused hrefuses =>
      obtain ⟨notices, haccept⟩ := hrefuses.refused
      have hmemory : m'.memory = _ := DelayedMemory.eq_of_refused (accept_pair haccept)
      rw [hmemory] at hclean
      exact hclean
    | sent hsends _ =>
      obtain ⟨s, notices, haccept, hnotified⟩ := hsends.accepted
      have hmemory : m'.memory = s.2 := hnotified.hears.2
      have haccept := accept_pair haccept
      rw [hmemory] at hclean
      -- an access clears no fault, so a memory without one had none before
      obtain ⟨answer, e, hperform⟩ := DelayedMemory.perform_of_accept haccept hclean
      obtain ⟨inflight, -, hs⟩ := DelayedMemory.eq_of_accepted haccept hperform
      rw [hs] at hclean
      exact (DelayedMemory.fault_perform hperform).symm.trans hclean
    | folded hfolds _ =>
      have hmemory : m'.memory = Plant.memory m₁ := hfolds.surroundings.hears.2
      rw [hmemory] at hclean
      exact hclean

end MemPort
