import Mathlib.Data.List.Infix
import MemPort.Proofs.Bookkeeping

/-!
# A memory that answers in order

The allocator numbers requests as they go out, and takes answers in any order.
Where the memory answers in the order in which it accepted the requests, the
answers are numbered from zero on as well.  Then the requests that went out fall
into two parts: the older ones were drained, and the younger ones are in flight.

## Main definitions

* `InOrder` — the memory answered the oldest requests first.
* `Books.Consecutive` — the requests in flight are the youngest ones.
* `OrderedRun` — a run in which the memory answers in order.

## Main results

* `Booked.consecutive` — a piece that drains at most the oldest request keeps
  them so.
* `OrderedRun.drains_oldest` — where the memory answers in order, answers are
  drained by number.
* `OrderedRun.consecutive` — and the requests in flight are the youngest ones.

## References

`SPEC_FULL.md`, section 10.7: the memory answers after a fixed latency, and so
in order.
-/

namespace MemPort

/-- The memory answers in the order in which it accepts: at every point, the
answers that were taken are those of the oldest requests that went out. -/
def InOrder {σ : Type} (ms : List (Moment σ)) : Prop :=
  ∀ pre ∈ ms.inits, (takenIn (pre.map (·.event))).map (·.id) <+:
    (sentIn (pre.map (·.event))).map (·.id)

instance {σ : Type} (ms : List (Moment σ)) : Decidable (InOrder ms) :=
  inferInstanceAs (Decidable (∀ pre ∈ ms.inits, _))

theorem InOrder.of_append {σ : Type} {pre post : List (Moment σ)} (h : InOrder (pre ++ post)) :
    InOrder pre := fun first hfirst => h first <| by
  rw [List.mem_inits] at hfirst ⊢
  exact hfirst.trans (List.prefix_append pre post)

/-- An event that drains an answer drains one, and takes none. -/
theorem Event.eq_of_mem_drained {e : Event} {response : BackendResponse}
    (h : response ∈ e.drained) : e.drained = [response] ∧ e.taken = [] := by
  cases e with
  | answered now response' result =>
    rw [List.mem_singleton.mp h]
    exact ⟨rfl, rfl⟩
  | _ => cases h

/-! ### The requests in flight are the youngest -/

/-- Of the requests that went out, some number of the oldest are no longer in
flight, and the others are. -/
def Books.Consecutive (b : Books) (answered : Nat) : Prop :=
  List.range answered ++ b.outstanding.entries.map (·.1) = List.range b.nextId

namespace Books.Consecutive

variable {b : Books} {answered id : Nat} {c : Coalesced}

theorem answered_le (h : b.Consecutive answered) : answered ≤ b.nextId := by
  have hlength := congrArg List.length h
  rw [List.length_append, List.length_range, List.length_range] at hlength
  omega

/-- A number is that of a request in flight if it is neither too old nor still
to come. -/
theorem mem_keys_iff (h : b.Consecutive answered) :
    id ∈ b.outstanding.entries.map (·.1) ↔ answered ≤ id ∧ id < b.nextId := by
  have hnodup : (List.range b.nextId).Nodup := List.nodup_range
  have hmem : id ∈ List.range answered ++ b.outstanding.entries.map (·.1) ↔ id < b.nextId := by
    rw [h, List.mem_range]
  rw [← h] at hnodup
  rw [List.mem_append, List.mem_range] at hmem
  constructor
  · intro hkey
    refine ⟨Nat.le_of_not_lt fun hlt => ?_, hmem.mp (Or.inr hkey)⟩
    exact (List.nodup_append.mp hnodup).2.2 id (List.mem_range.mpr hlt) id hkey rfl
  · rintro ⟨hle, hlt⟩
    exact (hmem.mpr hlt).resolve_left (Nat.not_lt.mpr hle)

theorem of_get? (h : b.Consecutive answered) (hid : b.outstanding.get? id = some c) :
    answered ≤ id ∧ id < b.nextId :=
  h.mem_keys_iff.mp (List.mem_map_of_mem ((AscMap.mem_entries_iff _ id c).mpr hid))

theorem exists_get? (h : b.Consecutive answered) (hle : answered ≤ id) (hlt : id < b.nextId) :
    ∃ c, b.outstanding.get? id = some c := by
  obtain ⟨⟨k, c⟩, hmem, rfl⟩ := List.mem_map.mp (h.mem_keys_iff.mpr ⟨hle, hlt⟩)
  exact ⟨c, (AscMap.mem_entries_iff _ k c).mp hmem⟩

/-- The oldest request in flight comes right behind those that were answered. -/
theorem eq_of_entries (h : b.Consecutive answered) {rest : List (Nat × Coalesced)}
    (hentries : b.outstanding.entries = (id, c) :: rest) : id = answered := by
  unfold Consecutive at h
  rw [hentries, List.map_cons] at h
  -- the number that stands right behind those that were answered
  have hnext := congrArg (·[answered]?) h
  simp only [List.getElem?_append_right, List.length_range, Nat.le_refl, Nat.sub_self,
    List.getElem?_cons_zero] at hnext
  obtain ⟨hlt, hnext⟩ := List.getElem?_eq_some_iff.mp hnext.symm
  rw [List.getElem_range] at hnext
  exact hnext.symm

theorem exists_entries (h : b.Consecutive answered) (hlt : answered < b.nextId) :
    ∃ c rest, b.outstanding.entries = (answered, c) :: rest := by
  cases hentries : b.outstanding.entries with
  | nil =>
    unfold Consecutive at h
    rw [hentries, List.map_nil, List.append_nil] at h
    have hlength := congrArg List.length h
    rw [List.length_range, List.length_range] at hlength
    omega
  | cons e rest =>
    obtain ⟨id, c⟩ := e
    obtain rfl := h.eq_of_entries hentries
    exact ⟨c, rest, rfl⟩

end Books.Consecutive

/-- **A piece that drains at most the oldest request** leaves the youngest ones
in flight. -/
theorem Booked.consecutive {b b' : Books} {e : Event} {answered : Nat} (h : Booked b e b')
    (hb : b.Consecutive answered)
    (hdrained : ∀ response ∈ e.drained, response.id = answered ∧ answered < b.nextId) :
    b'.Consecutive (answered + e.drained.length) := by
  cases h with
  | accepted => exact hb
  | quiet hquiet =>
    rw [(Event.of_isQuiet hquiet).2.2.2]
    exact hb
  | sent hfresh hqueued huniform =>
    unfold Books.Consecutive at hb ⊢
    simp only [Event.drained, List.length_nil, Nat.add_zero]
    rw [AscMap.entries_insert_of_lt _ fun k c hk => (Books.Consecutive.of_get? hb hk).2,
      List.map_append, ← List.append_assoc, hb, List.range_succ]
    rfl
  | folded hpending hmerged hqueued huniform =>
    unfold Books.Consecutive at hb ⊢
    simp only [Event.drained, List.length_nil, Nat.add_zero]
    rw [AscMap.keys_insert_of_get? _ hpending]
    exact hb
  | @answered now response result =>
    obtain ⟨hid, hlt⟩ := hdrained response (List.mem_singleton_self response)
    obtain ⟨c, rest, hentries⟩ := hb.exists_entries hlt
    unfold Books.Consecutive at hb ⊢
    rw [hentries, List.map_cons] at hb
    simp only [Event.drained, List.length_singleton, hid]
    rw [AscMap.entries_erase_of_cons hentries, List.range_succ, List.append_assoc]
    exact hb

/-! ### Runs -/

section Runs

variable {σ : Type} [Requestors σ] [Backend σ]

/-- A list of numbers from zero on is as long as it is. -/
theorem eq_range_of_prefix {l : List Nat} {n : Nat} (h : l <+: List.range n) :
    l = List.range l.length := by
  have hle := h.length_le
  rw [List.length_range] at hle
  rw [List.prefix_iff_eq_take] at h
  refine h.trans ?_
  rw [List.take_range, Nat.min_eq_left hle]

/-- What a memory answered in order, and what of it was drained. -/
theorem ids_taken_drained {config : AllocatorConfig} {b : Books} {es : List Event}
    {answers : List BackendResponse} (hkept : Kept (.empty config) es b)
    (horder : (takenIn es).map (·.id) <+: (sentIn es).map (·.id))
    (hqueue : takenIn es = drainedIn es ++ answers) :
    (∀ response rest, answers = response :: rest →
      response.id = (drainedIn es).length ∧ (drainedIn es).length < b.nextId) ∧
    (drainedIn es).map (·.id) = List.range (drainedIn es).length := by
  rw [hkept.sent_eq, hqueue, List.map_append] at horder
  constructor
  · rintro response rest rfl
    have hget : (List.range b.nextId)[(drainedIn es).length]? = some response.id := by
      obtain ⟨later, hlater⟩ := horder
      rw [← hlater, List.append_assoc, List.getElem?_append_right (by simp)]
      simp
    obtain ⟨hlt, hget⟩ := List.getElem?_eq_some_iff.mp hget
    rw [List.length_range] at hlt
    rw [List.getElem_range] at hget
    exact ⟨hget.symm, hlt⟩
  · have hrange := eq_range_of_prefix ((List.prefix_append _ _).trans horder)
    rwa [List.length_map] at hrange

/-- A run of a new allocator that breaks no contract, in which the memory
answers in order. -/
structure OrderedRun (config : AllocatorConfig) (m : Assembly (Recorded σ))
    (ms : List (Moment σ)) :
    Prop where
  /-- The pieces follow on each other. -/
  linked : Linked m ms
  /-- No contract is broken. -/
  unbroken : Unbroken ms
  /-- The memory calls in pieces of their own. -/
  elapsed : ∀ x ∈ ms, x.event = .elapsed → x.after.allocator = x.before.allocator
  /-- Nothing happened before. -/
  books : m.allocator.books = .empty config
  /-- No answer waits. -/
  answers : m.allocator.answers = []
  /-- The memory answers in order. -/
  order : InOrder ms

/-- The beginning of a run. -/
theorem orderedRun_of_run {config : AllocatorConfig} {a : Allocator}
    (hnew : Allocator.new config = .ok a) (s : σ) (j : Journal) {calls : List (Call σ)}
    {ms : List (Moment σ)} (hms : ms <+: run calls ⟨a, .start s, j⟩) (hok : Unbroken ms)
    (horder : InOrder ms) : OrderedRun config ⟨a, .start s, j⟩ ms := by
  have hlinked := (linked_run calls ⟨a, .start s, j⟩).initial hms
  refine ⟨hlinked, hok, fun x hx => allocator_elapsed (hms.subset hx),
    Allocator.books_new hnew, ?_, horder⟩
  rw [(Allocator.eq_of_new hnew).2]
  rfl

namespace OrderedRun

variable {config : AllocatorConfig} {m : Assembly (Recorded σ)} {ms pre post : List (Moment σ)}
  {x : Moment σ}

theorem kept (h : OrderedRun config m ms) :
    Kept (.empty config) (ms.map (·.event)) (endOf m ms).allocator.books := by
  rw [← h.books]
  exact h.linked.kept h.unbroken

theorem config_eq (h : OrderedRun config m ms) : (endOf m ms).allocator.config = config :=
  h.kept.config_eq

theorem before (h : OrderedRun config m (pre ++ post)) : OrderedRun config m pre where
  linked := h.linked.split.1
  unbroken x hx := h.unbroken x (List.mem_append_left post hx)
  elapsed x hx := h.elapsed x (List.mem_append_left post hx)
  books := h.books
  answers := h.answers
  order := h.order.of_append

/-- A piece of the run begins where those before it ended, and has the effect of
its event. -/
theorem effect (h : OrderedRun config m (pre ++ x :: post)) :
    x.before = endOf m pre ∧ x.Genuine ∧ Effect x.before x.after x.event := by
  obtain ⟨-, -, hbefore, hx, -⟩ := h.linked.split_cons
  exact ⟨hbefore, hx, effect_of_genuine hx (h.unbroken x (by simp))⟩

/-- What waits was taken, and not drained. -/
theorem taken_eq (h : OrderedRun config m ms) : takenIn (ms.map (·.event)) =
    drainedIn (ms.map (·.event)) ++ (endOf m ms).allocator.answers := by
  have hanswers := h.linked.answers_eq h.unbroken h.elapsed
  rwa [h.answers, List.nil_append] at hanswers

/-- **Answers are drained by number**: the next one is that of the oldest
request. -/
theorem drains_oldest (h : OrderedRun config m (pre ++ x :: post)) {response : BackendResponse}
    (hresponse : response ∈ x.event.drained) :
    response.id = (drainedIn (pre.map (·.event))).length ∧
      (drainedIn (pre.map (·.event))).length < x.before.allocator.books.nextId := by
  obtain ⟨hbefore, -, heffect⟩ := h.effect
  obtain ⟨hdrained, htaken⟩ := Event.eq_of_mem_drained hresponse
  have hanswers := heffect.answers_eq (h.elapsed x (by simp))
  rw [hdrained, htaken, List.append_nil] at hanswers
  rw [hbefore] at hanswers ⊢
  have horder := h.order pre ((List.mem_inits _ _).mpr (List.prefix_append _ _))
  exact (ids_taken_drained h.before.kept horder h.before.taken_eq).1 _ _ hanswers

theorem ids_drained (h : OrderedRun config m ms) : (drainedIn (ms.map (·.event))).map (·.id) =
    List.range (drainedIn (ms.map (·.event))).length :=
  (ids_taken_drained h.kept (h.order ms ((List.mem_inits _ _).mpr List.prefix_rfl)) h.taken_eq).2

/-- **Induction over a run**, piece by piece from its beginning. -/
theorem induct {P : List (Moment σ) → Assembly (Recorded σ) → Prop} (hstart : P [] m)
    (hstep : ∀ pre x, OrderedRun config m (pre ++ [x]) → P pre x.before →
      P (pre ++ [x]) x.after)
    (h : OrderedRun config m ms) : P ms (endOf m ms) := by
  induction ms using List.reverseRecOn with
  | nil => exact hstart
  | append_singleton pre x ih =>
    have hpre := ih h.before
    rw [← h.effect.1] at hpre
    rw [endOf_append]
    exact hstep pre x h hpre

/-- **The oldest requests are answered first**: of the requests that went out,
as many of the oldest as answers were drained are no longer in flight. -/
theorem consecutive (h : OrderedRun config m ms) :
    (endOf m ms).allocator.books.Consecutive (drainedIn (ms.map (·.event))).length := by
  refine h.induct (P := fun pre m' =>
    m'.allocator.books.Consecutive (drainedIn (pre.map (·.event))).length) ?_ ?_
  · rw [h.books]
    exact rfl
  · intro pre x hx ih
    rw [List.map_append, List.map_singleton, drainedIn_append, List.length_append]
    exact hx.effect.2.2.booked.consecutive ih fun response => hx.drains_oldest

end OrderedRun

end Runs

end MemPort
