import MemPort.Proofs.Folding
import MemPort.Proofs.Deliveries

/-!
# Requests that were merged

A request begins with one transaction.  Others may be folded into it one at a
time, or as a whole request that came about in the same way, so what stands
behind a request is the outcome of a tree of merges.  Every merge may be tried;
it goes through if both sides are loads of one line, and otherwise both stay as
they are.

The command and the line of a request are those of the transaction that it began
with, whatever was merged into it, so whether a merge goes through can be read
off the transactions that the two sides began with.  The memory's answer is then
cut up: for each transaction behind a load the bytes at its own place in the
line.

## Main definitions

* `Merging`, `Merging.request` — a history of merges, and the request that it
  leads to.
* `Merging.leader`, `Merging.members` — the transaction that a history began
  with, and all that joined.
* `Transaction.Shares` — two transactions are loads of one line.
* `Origin.CutFrom`, `Origin.PassedOn` — the completion of one transaction
  behind an answer.
* `Coalesced.FansOut` — what becomes of an answer as a whole.

## Main results

* `Merging.origins_request` — behind a request stand the transactions that
  joined, in the order of the merges.
* `Coalesced.fansOut_fanOut` — an answer is cut up exactly, or the first
  transaction beyond it is reported.
* `merging_exact` — requests of any history.

## References

`SPEC_FULL.md`, section 3: requests and the transactions merged into them;
section 4.5: the fan-out.
-/

namespace MemPort

/-! ### Which merges go through -/

/-- Two transactions may share an access: both are loads, and of the same line. -/
def Transaction.Shares (t u : Transaction) (lineSize : Nat) : Prop :=
  t.cmd = .read ∧ u.cmd = .read ∧ blockBase t.addr lineSize = blockBase u.addr lineSize

instance (t u : Transaction) (lineSize : Nat) : Decidable (t.Shares u lineSize) :=
  inferInstanceAs (Decidable (_ ∧ _))

namespace Coalesced

variable {c d : Coalesced} {lineSize : Nat}

/-- A request is for the line of the transaction that it began with. -/
def IsHeaded (c : Coalesced) (lineSize : Nat) : Prop := c.line = blockBase c.first.txn.addr lineSize

theorem canJoin_iff (h : c.IsHeaded lineSize) (txn : Transaction) :
    c.canJoin txn lineSize = true ↔ c.first.txn.Shares txn lineSize := by
  unfold canJoin Transaction.Shares
  rw [h]
  simp only [cmd, Bool.and_eq_true, beq_iff_eq, Command.isCoalescable_iff]
  constructor
  · rintro ⟨⟨hread, hcmd⟩, hline⟩
    exact ⟨hread, hcmd.trans hread, hline.symm⟩
  · rintro ⟨hread, hread', hline⟩
    exact ⟨⟨hread, hread'.trans hread.symm⟩, hline.symm⟩

/-- **Which transactions a request takes in.** -/
theorem tryJoin_eq (h : c.IsHeaded lineSize) (o : Origin) : c.tryJoin o lineSize =
    if c.first.txn.Shares o.txn lineSize then (true, c.add o) else (false, c) := by
  unfold tryJoin join?
  by_cases hjoin : c.canJoin o.txn lineSize = true
  · rw [if_pos hjoin, if_pos ((canJoin_iff h _).mp hjoin)]
  · rw [if_neg hjoin, if_neg (mt (canJoin_iff h _).mpr hjoin)]

/-- **Which requests a request takes in.** -/
theorem tryAbsorb_eq (hc : c.IsHeaded lineSize) (hd : d.IsHeaded lineSize) : c.tryAbsorb d =
    if c.first.txn.Shares d.first.txn lineSize
    then (.ok d.size, { c with folded := c.folded ++ d.origins }) else (.error d, c) := by
  have hiff : (c.cmd.isCoalescable && d.cmd == c.cmd && d.line == c.line) = true ↔
      c.first.txn.Shares d.first.txn lineSize := by
    rw [show d.line = blockBase d.first.txn.addr lineSize from hd]
    exact canJoin_iff hc d.first.txn
  unfold tryAbsorb absorb?
  by_cases hshare : c.first.txn.Shares d.first.txn lineSize
  · rw [if_pos (hiff.mpr hshare), if_pos hshare]
  · rw [if_neg (mt hiff.mp hshare), if_neg hshare]

end Coalesced

/-! ### Histories -/

/-- How a request came about.  The merges may go through or not. -/
inductive Merging where
  /-- From a transaction. -/
  | single (port : Nat) (txn : Transaction)
  /-- A transaction was to be folded into a request. -/
  | joining (m : Merging) (o : Origin)
  /-- A request was to absorb a later one. -/
  | absorbing (m later : Merging)

namespace Merging

variable {lineSize : Nat}

/-- The request that a history leads to. -/
def request (lineSize : Nat) : Merging → Coalesced
  | single port txn => .ofTransaction port txn lineSize
  | joining m o => ((m.request lineSize).tryJoin o lineSize).2
  | absorbing m later => ((m.request lineSize).tryAbsorb (later.request lineSize)).2

/-- The transaction that a history began with. -/
def leader : Merging → Origin
  | single port txn => ⟨port, txn⟩
  | joining m _ => m.leader
  | absorbing m _ => m.leader

/-- The transactions that are merged in a history, in the order of the merges
that go through: those are the merges of two sides that began with loads of one
line. -/
def members (lineSize : Nat) : Merging → List Origin
  | single port txn => [⟨port, txn⟩]
  | joining m o =>
      if m.leader.txn.Shares o.txn lineSize then m.members lineSize ++ [o] else m.members lineSize
  | absorbing m later =>
      if m.leader.txn.Shares later.leader.txn lineSize
      then m.members lineSize ++ later.members lineSize else m.members lineSize

/-- No merge changes what a request began with. -/
theorem headed_request (m : Merging) (lineSize : Nat) :
    (m.request lineSize).first = m.leader ∧ (m.request lineSize).IsHeaded lineSize := by
  induction m with
  | single port txn => exact ⟨rfl, rfl⟩
  | joining m o ih =>
    obtain ⟨hfirst, hheaded⟩ := ih
    simp only [request, leader, Coalesced.tryJoin_eq hheaded]
    split
    · exact ⟨hfirst, hheaded⟩
    · exact ⟨hfirst, hheaded⟩
  | absorbing m later ih ih' =>
    obtain ⟨hfirst, hheaded⟩ := ih
    simp only [request, leader, Coalesced.tryAbsorb_eq hheaded ih'.2]
    split
    · exact ⟨hfirst, hheaded⟩
    · exact ⟨hfirst, hheaded⟩

theorem tryJoin_request (m : Merging) (o : Origin) : (m.request lineSize).tryJoin o lineSize =
    if m.leader.txn.Shares o.txn lineSize then (true, (m.request lineSize).add o)
    else (false, m.request lineSize) := by
  obtain ⟨hfirst, hheaded⟩ := m.headed_request lineSize
  rw [Coalesced.tryJoin_eq hheaded, hfirst]

theorem tryAbsorb_request (m later : Merging) :
    (m.request lineSize).tryAbsorb (later.request lineSize) =
      if m.leader.txn.Shares later.leader.txn lineSize
      then (.ok (later.request lineSize).size, { m.request lineSize with
        folded := (m.request lineSize).folded ++ (later.request lineSize).origins })
      else (.error (later.request lineSize), m.request lineSize) := by
  obtain ⟨hfirst, hheaded⟩ := m.headed_request lineSize
  obtain ⟨hfirst', hheaded'⟩ := later.headed_request lineSize
  rw [Coalesced.tryAbsorb_eq hheaded hheaded', ← hfirst, ← hfirst']

/-- **Behind a request stand the transactions that joined**, in the order of the
merges. -/
theorem origins_request (m : Merging) (lineSize : Nat) :
    (m.request lineSize).origins = m.members lineSize := by
  induction m with
  | single port txn => rfl
  | joining m o ih =>
    rw [request, members, tryJoin_request]
    split
    · rw [Coalesced.origins_add, ih]
    · exact ih
  | absorbing m later ih ih' =>
    rw [request, members, tryAbsorb_request]
    split
    · rw [← ih, ← ih']
      rfl
    · exact ih

/-- A store is not folded in, and two later loads are, as the request that they
made up before. -/
example :
    ((Merging.absorbing
        (.joining (.single 0 (.load .read 1 0x40 4)) ⟨1, .store .write 2 0x40 [9]⟩)
        (.joining (.single 2 (.load .read 3 0x44 4)) ⟨3, .load .read 4 0x7c 4⟩)).members 64).map
      (·.port) = [0, 2, 3] := by decide

/-- Only the leader is there in any case; whatever joined it is, like it, a load
of its line. -/
theorem shares_of_mem_members {m : Merging} {o : Origin} (h : o ∈ m.members lineSize) :
    o = m.leader ∨ m.leader.txn.Shares o.txn lineSize := by
  induction m with
  | single port txn => exact Or.inl (List.mem_singleton.mp h)
  | joining m p ih =>
    rw [members] at h
    split at h
    · rename_i hshare
      rcases List.mem_append.mp h with h | h
      · exact ih h
      · rw [List.mem_singleton.mp h]
        exact Or.inr hshare
    · exact ih h
  | absorbing m later ih ih' =>
    rw [members] at h
    split at h
    · rename_i hshare
      rcases List.mem_append.mp h with h | h
      · exact ih h
      · right
        rcases ih' h with rfl | hlater
        · exact hshare
        -- the lines are equal along the two leaders
        · exact ⟨hshare.1, hlater.2.1, hshare.2.2.trans hlater.2.2⟩
    · exact ih h

/-- A request that is not a load stays alone. -/
theorem members_of_ne_read {m : Merging} (h : m.leader.txn.cmd ≠ .read) :
    m.members lineSize = [m.leader] := by
  induction m with
  | single port txn => rfl
  | joining m o ih =>
    rw [members, if_neg fun hshare => h hshare.1]
    exact ih h
  | absorbing m later ih _ =>
    rw [members, if_neg fun hshare => h hshare.1]
    exact ih h

theorem uniform_request (m : Merging) (lineSize : Nat) :
    (m.request lineSize).Uniform lineSize := by
  obtain ⟨hfirst, hheaded⟩ := m.headed_request lineSize
  intro o ho
  unfold Coalesced.cmd
  rw [hheaded, hfirst]
  rw [origins_request] at ho
  rcases shares_of_mem_members ho with rfl | ⟨hread, hread', hline⟩
  · exact ⟨rfl, rfl⟩
  · exact ⟨hline.symm, hread'.trans hread.symm⟩

end Merging

/-! ### Answers that are cut up -/

namespace Origin

/-- Where, counted from the start of a line, the transaction ends. -/
def reach (o : Origin) (line : Nat) : Nat := o.txn.addr - line + o.txn.size

/-- The completion of a load with its bytes out of those of its line. -/
structure CutFrom (o : Origin) (line : Nat) (data : Bytes) (d : Nat × Response) : Prop where
  /-- It is the completion of this transaction. -/
  completes : o.Completes d
  /-- Loads always take effect. -/
  success : d.2.success = true
  /-- It has as many bytes as were asked for. -/
  length : d.2.data.length = o.txn.size
  /-- They are those at the place of the transaction in its line. -/
  bytes : ∀ i, i < o.txn.size → d.2.data[i]? = data[o.txn.addr - line + i]?

/-- The completion of an access that went to the memory as it was. -/
structure PassedOn (o : Origin) (response : BackendResponse) (d : Nat × Response) : Prop where
  /-- It is the completion of this transaction. -/
  completes : o.Completes d
  /-- It took effect if the memory says so. -/
  success : d.2.success = response.success
  /-- It has the bytes that the memory answered. -/
  data : d.2.data = response.data

end Origin

namespace Coalesced

variable {line : Nat} {response : BackendResponse} {o : Origin}

/-- What becomes of an answer. -/
inductive FansOut (c : Coalesced) (response : BackendResponse) :
    Except InvariantViolation (List (Nat × Response)) → Prop
  /-- The answer to a load is long enough for all transactions behind it. -/
  | cut {ds : List (Nat × Response)} (hread : c.cmd = .read)
      (hfit : ∀ o ∈ c.origins, o.reach c.line ≤ response.data.length)
      (h : List.Forall₂ (fun o d => o.CutFrom c.line response.data d) c.origins ds) :
      FansOut c response (.ok ds)
  /-- It is too short for one of them, and long enough for those before it. -/
  | truncated {before after : List Origin} {o : Origin} (hread : c.cmd = .read)
      (horigins : c.origins = before ++ o :: after)
      (hfit : ∀ p ∈ before, p.reach c.line ≤ response.data.length)
      (hshort : response.data.length < o.reach c.line) :
      FansOut c response
        (.error (.truncatedResponse response.id response.data.length (o.reach c.line)))
  /-- All else completes as the memory answers. -/
  | passed {ds : List (Nat × Response)} (hcmd : c.cmd ≠ .read)
      (h : List.Forall₂ (fun o d => o.PassedOn response d) c.origins ds) :
      FansOut c response (.ok ds)

theorem slice_of_le (h : o.reach line ≤ response.data.length) :
    ∃ d, slice line response o = .ok d ∧ o.CutFrom line response.data d := by
  unfold Origin.reach at h
  refine ⟨_, if_pos h, completes_completion _ _ _, rfl, ?_, ?_⟩
  · simp only [Transaction.completion, List.length_take, List.length_drop]
    omega
  · intro i hi
    simp only [Transaction.completion, List.getElem?_take_of_lt hi, List.getElem?_drop]

theorem slice_of_lt (h : response.data.length < o.reach line) : slice line response o =
    .error (.truncatedResponse response.id response.data.length (o.reach line)) :=
  if_neg (Nat.not_le.mpr h)

/-- Cutting goes on up to the first transaction for which the answer is too
short. -/
theorem mapM_slice_cases (line : Nat) (response : BackendResponse) (os : List Origin) :
    (∃ ds, os.mapM (slice line response) = .ok ds ∧
        (∀ o ∈ os, o.reach line ≤ response.data.length) ∧
        List.Forall₂ (fun o d => o.CutFrom line response.data d) os ds) ∨
      ∃ before o after, os = before ++ o :: after ∧
        (∀ p ∈ before, p.reach line ≤ response.data.length) ∧
        response.data.length < o.reach line ∧ os.mapM (slice line response) =
          .error (.truncatedResponse response.id response.data.length (o.reach line)) := by
  induction os with
  | nil => exact Or.inl ⟨[], rfl, List.forall_mem_nil _, .nil⟩
  | cons o rest ih =>
    rw [List.mapM_cons]
    -- the first origin is cut short, or it is cut and the rest decides
    rcases Nat.lt_or_ge response.data.length (o.reach line) with hshort | hfit
    · right
      refine ⟨[], o, rest, rfl, List.forall_mem_nil _, hshort, ?_⟩
      rw [slice_of_lt hshort]
      rfl
    · obtain ⟨d, hslice, hcut⟩ := slice_of_le hfit
      rw [hslice]
      rcases ih with ⟨ds, hrest, hall, hcuts⟩ | ⟨before, p, after, rfl, hall, hshort, hrest⟩
      · left
        rw [hrest]
        exact ⟨d :: ds, rfl, List.forall_mem_cons.mpr ⟨hfit, hall⟩, .cons hcut hcuts⟩
      · right
        rw [hrest]
        exact ⟨o :: before, p, after, rfl, List.forall_mem_cons.mpr ⟨hfit, hall⟩,
          hshort, rfl⟩

/-- **Fanning out is exact.** -/
theorem fansOut_fanOut (c : Coalesced) (response : BackendResponse) :
    c.FansOut response (c.fanOut response) := by
  unfold fanOut
  by_cases hload : c.cmd.isCoalescable = true
  · have hread := (Command.isCoalescable_iff _).mp hload
    rw [if_pos hload]
    rcases mapM_slice_cases c.line response c.origins with
      ⟨ds, hds, hfit, hcuts⟩ | ⟨before, o, after, horigins, hfit, hshort, herror⟩
    · rw [hds]
      exact .cut hread hfit hcuts
    · rw [herror]
      exact .truncated hread horigins hfit hshort
  · rw [if_neg hload]
    refine .passed (mt (Command.isCoalescable_iff _).mpr hload) ?_
    rw [List.forall₂_map_right_iff, List.forall₂_same]
    exact fun o _ => ⟨completes_completion _ _ _, rfl, rfl⟩

end Coalesced

/-! ### Requests of any history -/

/-- **Merging and fanning out are exact.**  Behind the request of any history
stand the transactions that joined, in the order of the merges, at least one;
all are for its line and do what it does, and there is only one unless it is a
load.  A merge that is tried next either goes through, because both sides are
loads of one line, or leaves the request as it is and hands the other back as it
was.  An answer of the memory is fanned out exactly. -/
theorem merging_exact (m : Merging) (lineSize : Nat) :
    let c := m.request lineSize
    (c.origins = m.members lineSize ∧ c.origins ≠ []) ∧
      (∀ o ∈ c.origins, blockBase o.txn.addr lineSize = c.line ∧ o.txn.cmd = c.cmd) ∧
      (c.cmd ≠ .read → c.origins = [m.leader]) ∧
      (∀ o, c.tryJoin o lineSize =
        if m.leader.txn.Shares o.txn lineSize then (true, c.add o) else (false, c)) ∧
      (∀ later : Merging, c.tryAbsorb (later.request lineSize) =
        if m.leader.txn.Shares later.leader.txn lineSize
        then (.ok (later.members lineSize).length,
          { c with folded := c.folded ++ later.members lineSize })
        else (.error (later.request lineSize), c)) ∧
      ∀ response, c.FansOut response (c.fanOut response) := by
  intro c
  have hfirst : c.first = m.leader := (m.headed_request lineSize).1
  refine ⟨⟨m.origins_request lineSize, List.cons_ne_nil _ _⟩, m.uniform_request lineSize, ?_,
    m.tryJoin_request, ?_, c.fansOut_fanOut⟩
  · intro hcmd
    rw [m.origins_request lineSize]
    apply Merging.members_of_ne_read
    rw [← hfirst]
    exact hcmd
  · intro later
    rw [← later.origins_request lineSize]
    exact m.tryAbsorb_request later

end MemPort
