import MemPort.Proofs.Consistency
import MemPort.Proofs.Serializability

/-!
# Requests in flight, without their past

The account of a run remembers all completions since its start.  For what
becomes of the requests that are in flight only their own completions matter:
those that will be handed out when their answers are drained.

## Main definitions

* `Books.due` — the completions that the requests in flight will bring.
* `Flight` — what is known of the requests in flight and of the answers on
  their way.

## Main results

* `Flight.sent`, `Flight.folded`, `Flight.answered` — a request goes out, is
  folded into another, or is answered.
* `Flight.countP_due` — the increments among the completions that are due can
  be told from the answers.

## References

`SPEC_FULL.md`, section 3: the map of the requests in flight.
-/

namespace MemPort

theorem exists_of_forall₂ {α β : Type} {R : α → β → Prop} {as : List α} {bs : List β}
    (h : List.Forall₂ R as bs) {b : β} (hb : b ∈ bs) : ∃ a ∈ as, R a b := by
  induction h with
  | nil => cases hb
  | @cons a b' as bs hab _ ih =>
    rcases List.mem_cons.mp hb with rfl | hb
    · exact ⟨a, List.mem_cons_self, hab⟩
    · obtain ⟨a', ha', h⟩ := ih hb
      exact ⟨a', List.mem_cons_of_mem _ ha', h⟩

/-- An answer completes a store-conditional that took effect, or no increment at
all. -/
theorem Coalesced.countP_fanOut {c : Coalesced} {response : BackendResponse}
    {ds : List (Nat × Response)} (h : c.fanOut response = .ok ds)
    (huniform : ∀ o ∈ c.origins, o.txn.cmd = c.cmd)
    (halone : c.cmd ≠ .read → c.folded = []) :
    ds.countP (·.2.increments) =
      if c.cmd = .storeCond ∧ response.success = true then 1 else 0 := by
  by_cases hcmd : c.cmd = .storeCond
  · have hne : c.cmd ≠ .read := by rw [hcmd]; decide
    have horigins : c.origins = [c.first] := congrArg (c.first :: ·) (halone hne)
    unfold fanOut at h
    rw [if_neg (mt (Command.isCoalescable_iff _).mp hne), horigins] at h
    cases h
    have hfirst : c.first.txn.cmd = .storeCond := hcmd
    simp [Response.increments, Transaction.completion, hfirst, hcmd]
  · rw [if_neg fun hboth => hcmd hboth.1, List.countP_eq_zero]
    intro x hx hincrements
    obtain ⟨o, ho, -, -, hsame, -⟩ := exists_of_forall₂ (completes_fanOut h) hx
    rw [Response.increments_of_ne fun hstore =>
      hcmd ((huniform o ho).symm.trans (hsame.symm.trans hstore))] at hincrements
    cases hincrements

theorem DelayedMemory.cmds_serially {d d' : DelayedMemory} {xs : List (Nat × Origin)}
    {cs : List (Nat × Nat × Response)} (h : d.serially xs = .ok (cs, d')) :
    cs.map (·.2.2.cmd) = xs.map (·.2.txn.cmd) := by
  induction xs generalizing d cs with
  | nil =>
    cases h
    rfl
  | cons x rest ih =>
    obtain ⟨answer, d₁, cs', -, hrest, rfl⟩ := of_serially_cons h
    rw [List.map_cons, List.map_cons, ih hrest]
    rfl

/-- Loads increment nothing. -/
theorem DelayedMemory.countP_reads {d d' : DelayedMemory} {os : List Origin} {id : Nat}
    {cs : List (Nat × Nat × Response)} (h : d.serially (os.map fun o => (id, o)) = .ok (cs, d'))
    (hread : ∀ o ∈ os, o.txn.cmd = .read) : cs.countP (·.2.2.increments) = 0 := by
  rw [List.countP_eq_zero]
  intro c hc hincrements
  have hmem : c.2.2.cmd ∈ (os.map fun o => (id, o)).map (·.2.txn.cmd) := by
    rw [← cmds_serially h]
    exact List.mem_map_of_mem hc
  rw [List.map_map] at hmem
  obtain ⟨o, ho, heq⟩ := List.mem_map.mp hmem
  have heq : o.txn.cmd = c.2.2.cmd := heq
  rw [Response.increments_of_ne (by rw [← heq, hread o ho]; nofun)] at hincrements
  cases hincrements

/-- Whether an answer on its way tells of an increment that took effect. -/
def Allocator.increments (a : Allocator) (answer : BackendResponse) : Bool :=
  answer.success && (a.outstanding.get? answer.id).any (·.cmd == .storeCond)

/-- The completions that the requests in flight will bring, the oldest request
first. -/
def Books.due (b : Books) (cs : List (Nat × Nat × Response)) : List (Nat × Response) :=
  b.outstanding.entries.flatMap fun e => completedUnder e.1 cs

/-- What is known of the requests in flight and of the answers on their way. -/
structure Flight (b : Books) (answers : List BackendResponse) (contents : ByteMap)
    (cs : List (Nat × Nat × Response)) : Prop where
  /-- The numbers in use are below the next one. -/
  numbered : b.Numbered
  /-- Every request is for one line. -/
  uniform : ∀ e ∈ b.outstanding.entries, e.2.Uniform b.config.lineSize
  /-- Only loads share a request. -/
  alone : ∀ e ∈ b.outstanding.entries, e.2.cmd ≠ .read → e.2.folded = []
  /-- Nothing was completed under a number to come. -/
  below : ∀ c ∈ cs, c.1 < b.nextId
  /-- Every request has its answer on its way, in the same order. -/
  stands : List.Forall₂ (Stands b.outstanding.entries contents b.config.lineSize cs)
    b.outstanding.entries answers

namespace Flight

variable {b b' : Books} {answers : List BackendResponse} {d d' : DelayedMemory} {contents : ByteMap}
  {cs ds : List (Nat × Nat × Response)}

theorem numbered_mem (h : Flight b answers contents cs) {e : Nat × Coalesced}
    (he : e ∈ b.outstanding.entries) : e.1 < b.nextId :=
  h.numbered e.1 e.2 ((AscMap.mem_entries_iff _ _ _).mp he)

/-- Only the requests in flight, the next number and the size of a line matter. -/
theorem congr (h : Flight b answers contents cs) (hout : b'.outstanding = b.outstanding)
    (hnext : b'.nextId = b.nextId) (hconfig : b'.config = b.config) :
    Flight b' answers contents cs := by
  obtain ⟨queued, outstanding, nextId, config⟩ := b
  obtain ⟨queued', outstanding', nextId', config'⟩ := b'
  cases hout
  cases hnext
  cases hconfig
  exact ⟨h.numbered, h.uniform, h.alone, h.below, h.stands⟩

/-- **A request goes out.** -/
theorem sent {request : Coalesced} {answer : BackendResponse}
    (h : Flight b answers d.memory.contents cs) (huniform : request.Uniform b.config.lineSize)
    (halone : request.cmd ≠ .read → request.folded = [])
    (hperforms : request.Performs b.nextId b.config.lineSize d answer ds d')
    (hout : b'.outstanding = b.outstanding.insert b.nextId request)
    (hnext : b'.nextId = b.nextId + 1) (hconfig : b'.config = b.config) :
    Flight b' (answers ++ [answer]) d'.memory.contents (cs ++ ds) ∧
      b'.due (cs ++ ds) = b.due cs ++ ds.map (·.2) := by
  have hentries : b'.outstanding.entries = b.outstanding.entries ++ [(b.nextId, request)] := by
    rw [hout]
    exact AscMap.entries_insert_of_lt request h.numbered
  -- under the new number there is nothing but what the request brings
  have hfree : completedUnder b.nextId cs = [] := by
    unfold completedUnder
    rw [List.filterMap_eq_nil_iff]
    exact fun c hc => if_neg (Nat.ne_of_lt (h.below c hc))
  have hids : ∀ c ∈ ds, c.1 = b.nextId := by
    intro c hc
    have hmem : c.1 ∈ (request.origins.map fun o => (b.nextId, o)).map (·.1) := by
      rw [← DelayedMemory.ids_serially hperforms.serial]
      exact List.mem_map_of_mem hc
    rw [List.map_map] at hmem
    obtain ⟨o, -, heq⟩ := List.mem_map.mp hmem
    exact heq.symm
  constructor
  · refine ⟨fun id c hid => ?_, fun e he => ?_, fun e he => ?_, fun c hc => ?_, ?_⟩
    · rw [hout, AscMap.get?_insert] at hid
      rw [hnext]
      split at hid
      · rename_i heq
        exact heq ▸ Nat.lt_succ_self _
      · exact Nat.lt_succ_of_lt (h.numbered id c hid)
    · rw [hentries, List.mem_append, List.mem_singleton] at he
      rw [hconfig]
      rcases he with he | rfl
      · exact h.uniform e he
      · exact huniform
    · rw [hentries, List.mem_append, List.mem_singleton] at he
      rcases he with he | rfl
      · exact h.alone e he
      · exact halone
    · rw [hnext]
      rcases List.mem_append.mp hc with hc | hc
      · exact Nat.lt_succ_of_lt (h.below c hc)
      · exact hids c hc ▸ Nat.lt_succ_self _
    · rw [hentries, hconfig]
      exact Stands.all_sent h.stands (fun e he => ⟨h.numbered_mem he, h.uniform e he⟩)
        hfree hperforms
  · unfold Books.due
    rw [hentries, List.flatMap_append, List.flatMap_singleton, completedUnder_append, hfree,
      List.nil_append, DelayedMemory.completedUnder_of_pair hperforms.serial]
    congr 1
    refine List.flatMap_congr fun e he => ?_
    rw [completedUnder_append, DelayedMemory.completedUnder_of_pair_ne hperforms.serial
      (Nat.ne_of_gt (h.numbered_mem he)), List.append_nil]

/-- What is new under one of several numbers, each of which is there once, comes
somewhere among what was under them before. -/
theorem flatMap_completedUnder_append {entries : List (Nat × Coalesced)} {id : Nat}
    (hnodup : (entries.map (·.1)).Nodup) (hmem : id ∈ entries.map (·.1))
    (hids : ∀ c ∈ ds, c.1 = id) :
    (entries.flatMap fun e => completedUnder e.1 (cs ++ ds)).Perm
      ((entries.flatMap fun e => completedUnder e.1 cs) ++ ds.map (·.2)) := by
  have hother : ∀ k, k ≠ id → completedUnder k ds = [] := by
    intro k hk
    unfold completedUnder
    rw [List.filterMap_eq_nil_iff]
    exact fun c hc => if_neg fun heq => hk (heq.symm.trans (hids c hc))
  have hself : completedUnder id ds = ds.map (·.2) := by
    unfold completedUnder
    rw [← List.filterMap_eq_map]
    exact List.filterMap_congr fun c hc => if_pos (hids c hc)
  induction entries with
  | nil => cases hmem
  | cons e rest ih =>
    rw [List.map_cons, List.nodup_cons] at hnodup
    rw [List.flatMap_cons, List.flatMap_cons, completedUnder_append]
    by_cases hid : e.1 = id
    · -- the number is not among the others
      have hrest : (rest.flatMap fun e => completedUnder e.1 (cs ++ ds)) =
          rest.flatMap fun e => completedUnder e.1 cs := by
        refine List.flatMap_congr fun f hf => ?_
        have hne : f.1 ≠ id := fun heq =>
          hnodup.1 (hid.trans heq.symm ▸ List.mem_map_of_mem hf)
        rw [completedUnder_append, hother _ hne, List.append_nil]
      rw [hrest, hid, hself, List.append_assoc, List.append_assoc]
      exact List.Perm.append_left _ List.perm_append_comm
    · rw [List.map_cons] at hmem
      have hin := (List.mem_cons.mp hmem).resolve_left (Ne.symm hid)
      rw [hother _ hid, List.append_nil, List.append_assoc]
      exact List.Perm.append_left _ (ih hnodup.2 hin)

/-- Completions of a request that is extended are due somewhere among the others. -/
theorem due_insert {id : Nat} {target merged : Coalesced}
    (hget : b.outstanding.get? id = some target)
    (hout : b'.outstanding = b.outstanding.insert id merged) (hids : ∀ c ∈ ds, c.1 = id) :
    (b'.due (cs ++ ds)).Perm (b.due cs ++ ds.map (·.2)) := by
  have hmem : (id, target) ∈ b.outstanding.entries := (AscMap.mem_entries_iff _ _ _).mpr hget
  have hkeys : b'.outstanding.entries.map (·.1) = b.outstanding.entries.map (·.1) := by
    rw [hout]
    exact AscMap.keys_insert_of_get? merged hget
  -- only the numbers of the requests matter, and they are the same
  have hflat : ∀ (l : List (Nat × Coalesced)) (xs : List (Nat × Nat × Response)),
      (l.flatMap fun e => completedUnder e.1 xs) =
        (l.map (·.1)).flatMap fun k => completedUnder k xs := fun l xs => by
    rw [List.flatMap_map]
  have hsame : b'.due (cs ++ ds) = b.due (cs ++ ds) := by
    unfold Books.due
    rw [hflat, hflat, hkeys]
  rw [hsame]
  refine flatMap_completedUnder_append ?_ (List.mem_map_of_mem hmem) hids
  exact List.pairwise_map.mpr (b.outstanding.ascending.imp Nat.ne_of_lt)

/-- **A load is folded into one in flight.** -/
theorem folded {id limit : Nat} {request target merged : Coalesced}
    (h : Flight b answers d.memory.contents cs) (hget : b.outstanding.get? id = some target)
    (hlast : ∀ k store, b.outstanding.get? k = some store → store.Blocks request → k < id)
    (hmerged : target.absorb? request = some merged) (hsize : isPowerOfTwo b.config.lineSize = true)
    (hlimit : limit ≤ d.memory.size) (huniform : request.Uniform b.config.lineSize)
    (hsound : ∀ o ∈ request.origins, o.txn.Sound b.config.lineSize limit)
    (hout : b'.outstanding = b.outstanding.insert id merged) (hnext : b'.nextId = b.nextId)
    (hconfig : b'.config = b.config) :
    ∃ ds, d.serially (request.origins.map fun o => (id, o)) = .ok (ds, d) ∧
      Flight b' answers d.memory.contents (cs ++ ds) ∧
      (b'.due (cs ++ ds)).Perm (b.due cs ++ ds.map (·.2)) := by
  obtain ⟨hread, hread', -⟩ := Coalesced.loads_of_absorb? hmerged
  have hserial := DelayedMemory.serially_reads (d := d) id
    (fun o ho => (huniform o ho).2.trans hread') fun o ho => (hsound o ho).mono hlimit
  have hentries : b'.outstanding.entries =
      b.outstanding.entries.map fun e => if e.1 = id then (id, merged) else e := by
    rw [hout]
    exact AscMap.entries_insert_of_get? merged hget
  have hmem : (id, target) ∈ b.outstanding.entries := (AscMap.mem_entries_iff _ _ _).mpr hget
  have hwhich := AscMap.eq_of_mem_of_get? hget
  have hids : ∀ c ∈ request.origins.map fun o => (id, o.loaded d.memory.contents.byteAt),
      c.1 = id := by
    intro c hc
    obtain ⟨o, -, rfl⟩ := List.mem_map.mp hc
    rfl
  -- an entry is as it was, or it is the load that was joined
  have hcases : ∀ e ∈ b'.outstanding.entries, e ∈ b.outstanding.entries ∨
      e = (id, merged) := by
    intro e he
    rw [hentries] at he
    obtain ⟨e₀, he₀, rfl⟩ := List.mem_map.mp he
    split
    · exact Or.inr rfl
    · exact Or.inl he₀
  refine ⟨_, hserial,
    ⟨fun k c hk => ?_, fun e he => ?_, fun e he => ?_, fun c hc => ?_, ?_⟩, ?_⟩
  · rw [hout, AscMap.get?_insert] at hk
    rw [hnext]
    split at hk
    · rename_i heq
      exact heq ▸ h.numbered id target hget
    · exact h.numbered k c hk
  · rw [hconfig]
    rcases hcases e he with he | rfl
    · exact h.uniform e he
    · exact Coalesced.uniform_absorb? (h.uniform _ hmem) huniform hmerged
  · rcases hcases e he with he | rfl
    · exact h.alone e he
    · intro hne
      exact absurd ((Coalesced.origins_absorb? hmerged).2.1.trans hread) hne
  · rw [hnext]
    rcases List.mem_append.mp hc with hc | hc
    · exact h.below c hc
    · exact hids c hc ▸ h.numbered id target hget
  · rw [hentries, hconfig, List.forall₂_map_left_iff]
    exact Stands.all_folded h.stands hwhich
      (fun f hf => hlast f.1 f.2 ((AscMap.mem_entries_iff _ _ _).mp hf)) hmerged
      hsize huniform hsound hserial
  · exact due_insert hget hout hids

/-- **The oldest answer is drained.** -/
theorem answered {response : BackendResponse} (h : Flight b (response :: answers) contents cs)
    (hout : b'.outstanding = b.outstanding.erase response.id) (hnext : b'.nextId = b.nextId)
    (hconfig : b'.config = b.config) :
    ∃ request ds, b.outstanding.get? response.id = some request ∧
    request.fanOut response = .ok ds ∧
      b.due cs = ds ++ b'.due cs ∧ Flight b' answers contents cs := by
  obtain ⟨request, rest, hentries, hcompletes, hrest⟩ :=
    Stands.all_answered h.stands b.outstanding.ascending
  have hleft : b'.outstanding.entries = rest := by
    rw [hout]
    exact AscMap.entries_erase_of_cons hentries
  refine ⟨request, _, ?_, hcompletes, ?_, ⟨fun id c hid => ?_, fun e he => ?_, fun e he => ?_,
    fun c hc => ?_, ?_⟩⟩
  · rw [← AscMap.mem_entries_iff, hentries]
    exact List.mem_cons_self
  · unfold Books.due
    rw [hleft, hentries, List.flatMap_cons]
  · rw [hout, AscMap.get?_erase] at hid
    rw [hnext]
    split at hid
    · cases hid
    · exact h.numbered id c hid
  · rw [hconfig]
    exact h.uniform e (hentries ▸ List.mem_cons_of_mem _ (hleft ▸ he))
  · exact h.alone e (hentries ▸ List.mem_cons_of_mem _ (hleft ▸ he))
  · exact hnext ▸ h.below c hc
  · rw [hleft, hconfig]
    exact hrest

/-- **The increments that are due can be told from the answers on their way.** -/
theorem countP_due {a : Allocator} (h : Flight a.books answers contents cs) :
    (a.books.due cs).countP (·.2.increments) = answers.countP a.increments := by
  have hall : ∀ {es : List (Nat × Coalesced)} {as : List BackendResponse},
      List.Forall₂ (Stands a.outstanding.entries contents a.config.lineSize cs) es as →
      (∀ e ∈ es, e ∈ a.outstanding.entries) →
      (es.flatMap fun e => completedUnder e.1 cs).countP (·.2.increments) =
        as.countP a.increments := by
    intro es as hstands hmem
    induction hstands with
    | nil => rfl
    | @cons e answer es as hhead _ ih =>
      have he := hmem e List.mem_cons_self
      have hget : a.outstanding.get? answer.id = some e.2 := by
        rw [hhead.id, ← AscMap.mem_entries_iff]
        exact he
      have hone := Coalesced.countP_fanOut hhead.completes (fun o ho => (h.uniform e he o ho).2)
        (h.alone e he)
      rw [List.flatMap_cons, List.countP_append, List.countP_cons, hone,
        ih fun e' he' => hmem e' (List.mem_cons_of_mem _ he'), Nat.add_comm]
      congr 1
      unfold Allocator.increments
      rw [hget]
      by_cases hboth : e.2.cmd = .storeCond ∧ answer.success = true
      · simp [hboth]
      · rw [if_neg hboth, if_neg]
        simpa [and_comm] using hboth
  exact hall h.stands fun _ he => he

end Flight

end MemPort
