import Mathlib.Data.Finset.Card
import Mathlib.Data.Finset.Range
import MemPort.Proofs.Rotation

/-!
# Rounds of an arbiter

An arbiter that moves behind every port it chooses goes round.  While the same
ports are ready, each of them is granted once before any of them is granted
again, wherever the rotation stands at first.  And a port that is ready all the
time is granted before the rotation has gone round once, whichever other ports
are ready in between.

Both are seen from the place of a port in the rotation.  With every grant to
another port it gets closer to the front, in two ways: the number of ports that
are asked before it falls, and as long as the same ports are ready, the number
of *ready* ports asked before it falls by exactly one.  A port is granted when
there is none, and then it has all other ready ports before it.

## Main definitions

* `RoundRobin.Serves` — arbitrations, each followed by the move behind the
  port that was chosen.
* `readyPorts` — the ports that a mask shows as ready.
* `RoundRobin.rank` — how many ready ports are asked before a port.

## Main results

* `RoundRobin.ahead_grant` — where a port stands after a grant.
* `RoundRobin.rank_grant`, `RoundRobin.rank_grant_self` — how many ready ports
  are before it then.
* `rotation_windows` — as many grants in a row as there are ready ports go to
  each of them once, and a port that is ready all the time is granted within one
  round.

## References

`SPEC_FULL.md`, section 8, round-robin fairness.
-/

namespace MemPort

/-- The ports that a mask shows as ready. -/
def readyPorts (ready : List Bool) : Finset Nat :=
  (Finset.range ready.length).filter fun port => ready.getD port false = true

theorem mem_readyPorts {ready : List Bool} {port : Nat} :
    port ∈ readyPorts ready ↔ port < ready.length ∧ ready.getD port false = true := by
  rw [readyPorts, Finset.mem_filter, Finset.mem_range]

namespace RoundRobin

/-- Arbitrations under one mask after the other, where each chooses a port and
the rotation moves behind it. -/
inductive Serves : RoundRobin → List (List Bool) → List Nat → RoundRobin → Prop
  /-- There is none. -/
  | nil (r : RoundRobin) : Serves r [] [] r
  /-- A port is chosen first. -/
  | cons {r r₁ r' : RoundRobin} {ready : List Bool} {masks : List (List Bool)} {port : Nat}
      {granted : List Nat}
      (hchosen : r.arbitrate ready = .ok (some port)) (hmoved : r.update port = .ok r₁)
      (hrest : Serves r₁ masks granted r') : Serves r (ready :: masks) (port :: granted) r'

/-- The number of ready ports that are asked before a port. -/
def rank (r : RoundRobin) (ready : List Bool) (port : Nat) : Nat :=
  ((readyPorts ready).filter fun other => r.ahead other < r.ahead port).card

variable {r r' : RoundRobin} {ready : List Bool} {masks : List (List Bool)}
  {port other granted : Nat} {grants : List Nat}

/-! ### A grant -/

theorem ahead_lt (h : port < r.ports) : r.ahead port < r.ports := by
  have hstart : r.start < r.ports := start_lt (by omega)
  unfold ahead
  split <;> omega

/-- No two ports are asked at the same time. -/
theorem ahead_inj (hport : port < r.ports) (hother : other < r.ports)
    (h : r.ahead port = r.ahead other) :
    port = other := by
  rw [← asked_ahead hport, h, asked_ahead hother]

/-- **Where a port stands after a grant**: last if it was granted, and else as
many places closer to the front as there were up to the port that was
granted. -/
theorem ahead_grant (hport : port < r.ports) (hgranted : granted < r.ports) :
    (r.grant granted).ahead port =
      if r.ahead granted < r.ahead port then r.ahead port - r.ahead granted - 1
      else r.ahead port + r.ports - r.ahead granted - 1 := by
  have hports : (r.grant granted).ports = r.ports := rfl
  have hstart : r.start < r.ports := start_lt (by omega)
  unfold ahead
  rw [start_grant hgranted, hports]
  split_ifs <;> omega

/-- A port is only chosen under a mask that has one bit for each port. -/
theorem arbitrate_eq_some_iff : r.arbitrate ready = .ok (some granted) ↔
    ready.length = r.ports ∧ r.choose ready = some granted := by
  unfold arbitrate
  split
  · rename_i hwidth
    rw [Except.ok.injEq]
    exact ⟨fun h => ⟨hwidth, h⟩, fun h => h.2⟩
  · rename_i hwidth
    exact ⟨nofun, fun h => absurd h.1 hwidth⟩

/-- A port that is chosen can be granted. -/
theorem update_of_choose (h : r.choose ready = some granted) :
    r.update granted = .ok (r.grant granted) :=
  if_pos (lt_of_choose h)

/-- The chosen port is asked before all others that are ready. -/
theorem ahead_lt_of_choose (hwidth : ready.length = r.ports) (h : r.choose ready = some granted)
    (hport : port ∈ readyPorts ready) (hne : port ≠ granted) :
    r.ahead granted < r.ahead port := by
  obtain ⟨hlt, hready⟩ := mem_readyPorts.mp hport
  rw [hwidth] at hlt
  have hle := ahead_le_of_choose h hlt hready
  have : r.ahead port ≠ r.ahead granted := fun heq => hne (ahead_inj hlt (lt_of_choose h) heq)
  omega

theorem mem_readyPorts_of_choose (hwidth : ready.length = r.ports)
    (h : r.choose ready = some granted) :
    granted ∈ readyPorts ready :=
  mem_readyPorts.mpr ⟨hwidth ▸ lt_of_choose h, ready_of_choose h⟩

/-- Where a port is ready, one is chosen. -/
theorem exists_choose (hwidth : ready.length = r.ports) (hport : port ∈ readyPorts ready) :
    ∃ granted, r.choose ready = some granted := by
  rw [← Option.ne_none_iff_exists']
  intro hnone
  obtain ⟨hlt, hready⟩ := mem_readyPorts.mp hport
  rw [(choose_eq_none_iff r ready).mp hnone port (hwidth ▸ hlt)] at hready
  cases hready

/-- Fewer ready ports are asked before a ready port than there are. -/
theorem rank_lt (hport : port ∈ readyPorts ready) :
    r.rank ready port < (readyPorts ready).card := by
  refine Finset.card_lt_card (Finset.filter_ssubset.mpr ⟨port, hport, ?_⟩)
  exact Nat.lt_irrefl _

/-- **A grant to another port takes one ready port out of the way.** -/
theorem rank_grant (hwidth : ready.length = r.ports) (h : r.choose ready = some granted)
    (hport : port ∈ readyPorts ready) (hne : port ≠ granted) :
    r.rank ready port = (r.grant granted).rank ready port + 1 := by
  have hgranted := lt_of_choose h
  have hbefore := ahead_lt_of_choose hwidth h hport hne
  have hlt : port < r.ports := hwidth ▸ (mem_readyPorts.mp hport).1
  have hplace := ahead_grant hlt hgranted
  have hplaceSelf := ahead_grant hgranted hgranted
  have hself := ahead_lt hlt
  rw [if_pos hbefore] at hplace
  rw [if_neg (Nat.lt_irrefl _)] at hplaceSelf
  unfold rank
  -- the port that was granted is before it at first, and behind it then
  rw [← Finset.card_insert_of_notMem (a := granted)]
  · congr 1
    ext q
    rw [Finset.mem_insert, Finset.mem_filter, Finset.mem_filter]
    by_cases hq : q = granted
    · rw [hq]
      exact ⟨fun _ => Or.inl rfl, fun _ => ⟨mem_readyPorts_of_choose hwidth h, hbefore⟩⟩
    · -- all others keep their distance
      rw [or_iff_right hq]
      refine and_congr_right fun hready => ?_
      have hfar := ahead_lt_of_choose hwidth h hready hq
      rw [hplace, ahead_grant (hwidth ▸ (mem_readyPorts.mp hready).1) hgranted, if_pos hfar]
      omega
  · rw [Finset.mem_filter, not_and, hplace, hplaceSelf]
    intro
    omega

/-- **A port that was granted has all other ready ports before it.** -/
theorem rank_grant_self (hwidth : ready.length = r.ports) (h : r.choose ready = some granted) :
    (r.grant granted).rank ready granted + 1 = (readyPorts ready).card := by
  have hgranted := lt_of_choose h
  have hmem := mem_readyPorts_of_choose hwidth h
  have hplaceSelf := ahead_grant hgranted hgranted
  have hself := ahead_lt hgranted
  rw [if_neg (Nat.lt_irrefl _)] at hplaceSelf
  rw [← Finset.card_erase_add_one hmem]
  unfold rank
  congr 2
  ext q
  rw [Finset.mem_filter, Finset.mem_erase, and_comm]
  refine and_congr_left fun hready => ?_
  have hlt : q < r.ports := hwidth ▸ (mem_readyPorts.mp hready).1
  by_cases hq : q = granted
  · rw [hq]
    exact ⟨fun hlt => absurd hlt (Nat.lt_irrefl _), fun hne => absurd rfl hne⟩
  · have hfar := ahead_lt_of_choose hwidth h hready hq
    have := ahead_lt hlt
    rw [ahead_grant hlt hgranted, if_pos hfar, hplaceSelf]
    exact ⟨fun _ => hq, fun _ => by omega⟩

/-! ### Many grants -/

/-- Where some port is always ready, every arbitration chooses a port. -/
theorem exists_serves
    (h : ∀ ready ∈ masks, ready.length = r.ports ∧ (readyPorts ready).Nonempty) :
    ∃ grants r', r.Serves masks grants r' := by
  induction masks generalizing r with
  | nil => exact ⟨[], r, .nil r⟩
  | cons ready masks ih =>
    obtain ⟨⟨hwidth, port, hport⟩, hrest⟩ := List.forall_mem_cons.mp h
    obtain ⟨granted, hchosen⟩ := exists_choose hwidth hport
    obtain ⟨grants, r', hserves⟩ := ih (r := r.grant granted) hrest
    exact ⟨granted :: grants, r',
      .cons (arbitrate_eq_some_iff.mpr ⟨hwidth, hchosen⟩) (update_of_choose hchosen)
      hserves⟩

theorem Serves.length_eq (h : r.Serves masks grants r') : grants.length = masks.length := by
  induction h with
  | nil => rfl
  | cons _ _ _ ih => rw [List.length_cons, List.length_cons, ih]

/-- The first grant, and the rest. -/
theorem Serves.uncons (h : r.Serves (ready :: masks) grants r') :
    ∃ granted rest, grants = granted :: rest ∧
    ready.length = r.ports ∧ r.choose ready = some granted ∧
    (r.grant granted).Serves masks rest r' := by
  cases h with
  | cons hchosen hmoved hrest =>
    obtain ⟨hwidth, hchosen⟩ := arbitrate_eq_some_iff.mp hchosen
    rw [update_of_choose hchosen] at hmoved
    cases hmoved
    exact ⟨_, _, rfl, hwidth, hchosen, hrest⟩

/-- What is left of some grants are again grants of an arbiter of as many ports. -/
theorem Serves.drop (h : r.Serves masks grants r') (n : Nat) :
    ∃ r₁ : RoundRobin, r₁.ports = r.ports ∧
    r₁.Serves (masks.drop n) (grants.drop n) r' := by
  induction masks generalizing r grants n with
  | nil =>
    cases h
    exact ⟨r', rfl, by rw [List.drop_nil, List.drop_nil]; exact .nil r'⟩
  | cons ready masks ih =>
    cases n with
    | zero => exact ⟨r, rfl, h⟩
    | succ n =>
      obtain ⟨granted, rest, rfl, -, -, hrest⟩ := h.uncons
      exact ih hrest n

/-- So are the first of some grants. -/
theorem Serves.take (h : r.Serves masks grants r') (n : Nat) :
    ∃ r₁, r.Serves (masks.take n) (grants.take n) r₁ := by
  induction h generalizing n with
  | nil r => exact ⟨r, by rw [List.take_nil, List.take_nil]; exact .nil r⟩
  | @cons r _ _ _ _ _ _ hchosen hmoved _ ih =>
    cases n with
    | zero => exact ⟨r, .nil r⟩
    | succ n =>
      obtain ⟨r₁, hserves⟩ := ih n
      exact ⟨r₁, .cons hchosen hmoved hserves⟩

/-- And so are those of a window. -/
theorem Serves.window (h : r.Serves masks grants r') (first n : Nat) :
    ∃ r₁ r₂ : RoundRobin, r₁.ports = r.ports ∧
      r₁.Serves ((masks.drop first).take n) ((grants.drop first).take n) r₂ := by
  obtain ⟨r₁, hports, hserves⟩ := h.drop first
  obtain ⟨r₂, hserves⟩ := hserves.take n
  exact ⟨r₁, r₂, hports, hserves⟩

/-- **While the same ports are ready**, a ready port is not granted before those
that are asked before it, and then it is granted once before any is granted
again. -/
theorem Serves.count_eq {n : Nat} (h : r.Serves (List.replicate n ready) grants r')
    (hport : port ∈ readyPorts ready) (hle : n ≤ r.rank ready port + (readyPorts ready).card) :
    grants.count port = if n ≤ r.rank ready port then 0 else 1 := by
  induction n generalizing r grants with
  | zero =>
    cases h
    rw [if_pos (Nat.zero_le _), List.count_nil]
  | succ n ih =>
    obtain ⟨granted, rest, rfl, hwidth, hchosen, hrest⟩ := Serves.uncons h
    by_cases hne : port = granted
    · -- its turn has come, and all others come before its next
      subst hne
      have hself := rank_grant_self hwidth hchosen
      have hnone : r.rank ready port = 0 := by
        rw [rank, Finset.card_eq_zero, Finset.filter_eq_empty_iff]
        intro q hq
        by_cases hqp : q = port
        · rw [hqp]
          exact Nat.lt_irrefl _
        · exact Nat.lt_asymm (ahead_lt_of_choose hwidth hchosen hq hqp)
      rw [hnone] at hle
      rw [List.count_cons_self, ih hrest (by omega), if_pos (by omega), if_neg (by omega)]
    · have hstep := rank_grant hwidth hchosen hport hne
      rw [List.count_cons_of_ne (Ne.symm hne), ih hrest (by omega)]
      by_cases hearly : n ≤ (r.grant granted).rank ready port
      · rw [if_pos hearly, if_pos (by omega)]
      · rw [if_neg hearly, if_neg (by omega)]

/-- **A port that is ready all the time** is granted once as many have been
granted as were asked before it. -/
theorem Serves.mem_of_ready (h : r.Serves masks grants r')
    (hready : ∀ ready ∈ masks, port ∈ readyPorts ready)
    (hlong : r.ahead port < masks.length) : port ∈ grants := by
  induction masks generalizing r grants with
  | nil => exact absurd hlong (Nat.not_lt_zero _)
  | cons ready masks ih =>
    obtain ⟨hport, hrest⟩ := List.forall_mem_cons.mp hready
    obtain ⟨granted, rest, rfl, hwidth, hchosen, hserves⟩ := h.uncons
    by_cases hne : port = granted
    · rw [hne]
      exact List.mem_cons_self
    · refine List.mem_cons_of_mem _ (ih hserves hrest ?_)
      -- it moves up by one place at least
      have hbefore := ahead_lt_of_choose hwidth hchosen hport hne
      rw [List.length_cons] at hlong
      rw [ahead_grant (hwidth ▸ (mem_readyPorts.mp hport).1) (lt_of_choose hchosen),
        if_pos hbefore]
      omega

/-- Grants do not change the number of ports. -/
theorem ports_of_updates {earlier : List Nat} (h : earlier.foldlM update r = .ok r') :
    r'.ports = r.ports := by
  induction earlier generalizing r with
  | nil =>
    cases h
    rfl
  | cons port rest ih =>
    rw [List.foldlM_cons] at h
    obtain ⟨r₁, hmoved, hrest⟩ := exists_of_bind_eq_ok h
    unfold update at hmoved
    split at hmoved
    · cases hmoved
      exact (ih hrest :)
    · cases hmoved

end RoundRobin

/-- **Windows of the rotation.**  Take an arbiter of any number of ports, after
any grants to ports that exist.

While the same ports are ready, and at least one is, every arbitration chooses a
port; and of as many grants in a row as there are ready ports, wherever they
start, exactly one goes to each of them.

While a port is ready all the time, whichever others are, every arbitration
chooses a port too; and of as many grants in a row as there are ports, wherever
they start, one goes to that port. -/
theorem rotation_windows {ports : Nat} {new r : RoundRobin} (hnew : RoundRobin.new ports = .ok new)
    {earlier : List Nat} (hearlier : earlier.foldlM RoundRobin.update new = .ok r) :
    (∀ ready : List Bool, ready.length = ports → (readyPorts ready).Nonempty → ∀ n,
      (∃ grants r', r.Serves (List.replicate n ready) grants r') ∧
        ∀ grants r', r.Serves (List.replicate n ready) grants r' → grants.length = n ∧
          ∀ first, first + (readyPorts ready).card ≤ n → ∀ port ∈ readyPorts ready,
            ((grants.drop first).take (readyPorts ready).card).count port = 1) ∧
      ∀ port (masks : List (List Bool)),
      (∀ ready ∈ masks, ready.length = ports ∧ port ∈ readyPorts ready) →
        (∃ grants r', r.Serves masks grants r') ∧
          ∀ grants r', r.Serves masks grants r' → grants.length = masks.length ∧
            ∀ first, first + ports ≤ masks.length →
            port ∈ (grants.drop first).take ports := by
  have hports : 0 < ports ∧ r.ports = ports := by
    have hkept := RoundRobin.ports_of_updates hearlier
    unfold RoundRobin.new at hnew
    split at hnew
    · cases hnew
    · cases hnew
      exact ⟨by omega, hkept⟩
  obtain ⟨hpos, hports⟩ := hports
  refine ⟨fun ready hwidth hsome n => ⟨?_, fun grants r' h => ⟨?_, ?_⟩⟩,
    fun port masks hmasks => ⟨?_, fun grants r' h => ⟨h.length_eq, ?_⟩⟩⟩
  · refine RoundRobin.exists_serves fun mask hmask => ?_
    rw [List.eq_of_mem_replicate hmask, hports]
    exact ⟨hwidth, hsome⟩
  · rw [h.length_eq, List.length_replicate]
  · intro first hfirst port hport
    obtain ⟨r₁, r₂, -, hwindow⟩ := h.window first (readyPorts ready).card
    rw [List.drop_replicate, List.take_replicate, Nat.min_eq_left (by omega)] at hwindow
    rw [hwindow.count_eq hport (Nat.le_add_left _ _),
      if_neg (Nat.not_le.mpr (RoundRobin.rank_lt hport))]
  · refine RoundRobin.exists_serves fun mask hmask => ?_
    rw [hports]
    exact ⟨(hmasks mask hmask).1, port, (hmasks mask hmask).2⟩
  · intro first hfirst
    obtain ⟨r₁, r₂, hsame, hwindow⟩ := h.window first ports
    have hready : ∀ ready ∈ (masks.drop first).take ports, port ∈ readyPorts ready :=
      fun ready hmem =>
      (hmasks ready (List.mem_of_mem_drop (List.mem_of_mem_take hmem))).2
    have hlength : ((masks.drop first).take ports).length = ports := by
      rw [List.length_take, List.length_drop]
      omega
    refine hwindow.mem_of_ready hready ?_
    rw [hlength]
    -- the port exists, as the mask of an arbitration has one bit for each port
    obtain ⟨ready, hmem⟩ := List.exists_mem_of_length_pos (hlength ▸ hpos)
    have hmask := hmasks ready (List.mem_of_mem_drop (List.mem_of_mem_take hmem))
    have hlt := (mem_readyPorts.mp hmask.2).1
    rw [← hports, ← hsame]
    exact RoundRobin.ahead_lt (by omega)

/-- Five ports, of which the second and the fourth are not ready. -/
def threeOfFive : List Bool := [true, false, true, false, true]

/-- Masks that change, but always show the second of five ports as ready. -/
def alwaysSecond : List (List Bool) :=
  [[true, true, true, true, true], [false, true, true, true, true],
    [true, true, true, false, false],
    [false, true, false, true, true], [true, true, false, false, false]]

/-- After grants to the fourth port and to the second, the last port is granted
once in a window of three grants; and the second is granted again among the next
five. -/
theorem rotation_windows_afterTwoGrants : ∃ new r, RoundRobin.new 5 = .ok new ∧
    [3, 1].foldlM RoundRobin.update new = .ok r ∧
    (∃ grants r', r.Serves (List.replicate 7 threeOfFive) grants r' ∧
      ((grants.drop 2).take 3).count 4 = 1) ∧
    ∃ grants r', r.Serves alwaysSecond grants r' ∧ 1 ∈ (grants.drop 0).take 5 := by
  obtain ⟨hfixed, hchanging⟩ := @rotation_windows 5 ⟨5, none⟩ ⟨5, some 1⟩ rfl [3, 1] rfl
  refine ⟨⟨5, none⟩, ⟨5, some 1⟩, rfl, rfl, ?_, ?_⟩
  · obtain ⟨⟨grants, r', hserves⟩, hwindows⟩ := hfixed threeOfFive rfl ⟨0, by decide⟩ 7
    exact ⟨grants, r', hserves, (hwindows grants r' hserves).2 2 (by decide) 4 (by decide)⟩
  · obtain ⟨⟨grants, r', hserves⟩, hwindows⟩ := hchanging 1 alwaysSecond (by decide)
    exact ⟨grants, r', hserves, (hwindows grants r' hserves).2 0 (by decide)⟩

end MemPort
