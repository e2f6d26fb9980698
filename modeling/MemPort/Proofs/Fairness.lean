import MemPort.Proofs.Retries
import MemPort.Proofs.Rotation

/-!
# A waiting port is passed over once by each other port

While a port has one head that is visible at every arbitration, every other port
is granted with success at most once.

The argument follows one other port.  As long as the waiting port is asked
before it, it is not granted at all: whoever is granted was asked no later than
the waiting port, and the grant keeps the two in order.  If it is asked first,
then at its first grant it moves behind the waiting port.  All that happens
between two grants — a port that is parked, locks that are dropped, heads that
join the request of another port, a request that the memory refuses, calls from
outside — leaves the rotation alone.

## Main definitions

* `Contends` — over some pieces of a run, a port waits with one visible head.
* `grantsIn` — how often a port is granted with success.
* `Passes` — what a piece of a run does to a port that waits.

## Main results

* `Linked.never_granted` — a port that is asked after the waiting one is not
  granted.
* `granted_at_most_once` — every other port is granted with success at most
  once.

## References

`SPEC_FULL.md`, section 8, round-robin fairness; section 4.4, step 3.
-/

namespace MemPort

section Waiting

variable {σ : Type}

/-- Over some pieces of a run, a port waits with one visible head: the head is
visible at every arbitration, and does not leave its queue before the last of
them. -/
structure Contends (port : Nat) (ms : List (Moment σ)) : Prop where
  /-- The head is ready at every arbitration, and the port is not parked. -/
  visible : ∀ x ∈ ms, ∀ now ∈ x.event.arbitratedAt?,
    (x.before.allocator.headAt? now port).isSome = true
  /-- No head leaves the queue of the port before an arbitration. -/
  same : ms.Pairwise fun x y => y.event.arbitratedAt?.isSome = true → ¬ x.Frees port

theorem Contends.tail {port : Nat} {x : Moment σ} {ms : List (Moment σ)}
    (h : Contends port (x :: ms)) : Contends port ms :=
  ⟨fun y hy => h.visible y (List.mem_cons_of_mem x hy), (List.pairwise_cons.mp h.same).2⟩

/-- A port is granted in an arbitration only. -/
theorem Event.arbitratedAt?_of_winner? {e : Event} {port : Nat} (h : e.winner? = some port) :
    e.arbitratedAt?.isSome = true := by
  cases e with
  | turned now result => rfl
  | _ => cases h

/-- How often a port is granted with success in some pieces of a run. -/
def grantsIn (port : Nat) (ms : List (Moment σ)) : Nat :=
  ms.countP fun x => x.event.winner? == some port

theorem grantsIn_cons_self {port : Nat} {x : Moment σ} (h : x.event.winner? = some port)
    (ms : List (Moment σ)) : grantsIn port (x :: ms) = grantsIn port ms + 1 := by
  unfold grantsIn
  rw [List.countP_cons, h, beq_self_eq_true, if_pos rfl]

theorem grantsIn_cons_of_ne {port : Nat} {x : Moment σ} (h : x.event.winner? ≠ some port)
    (ms : List (Moment σ)) : grantsIn port (x :: ms) = grantsIn port ms := by
  unfold grantsIn
  rw [List.countP_cons, if_neg (by simpa using h), Nat.add_zero]

theorem grantsIn_cons_of_other {port q : Nat} {x : Moment σ} (h : x.event.winner? = some q)
    (hne : q ≠ port) (ms : List (Moment σ)) : grantsIn port (x :: ms) = grantsIn port ms := by
  apply grantsIn_cons_of_ne
  rw [h]
  intro heq
  exact hne (Option.some.inj heq)

theorem grantsIn_eq_zero {port : Nat} {ms : List (Moment σ)}
    (h : ∀ x ∈ ms, x.event.arbitratedAt?.isSome = false) : grantsIn port ms = 0 := by
  refine List.countP_eq_zero.mpr fun x hx hwinner => ?_
  have harbitrated := Event.arbitratedAt?_of_winner? (beq_iff_eq.mp hwinner)
  rw [h x hx] at harbitrated
  cases harbitrated

/-- Once its head has left the queue, there is no arbitration. -/
theorem Contends.grantsIn_of_frees {port : Nat} {x : Moment σ} {ms : List (Moment σ)}
    (h : Contends port (x :: ms)) (hfrees : x.Frees port) (other : Nat) :
    grantsIn other ms = 0 := by
  refine grantsIn_eq_zero fun y hy => ?_
  have hsame := (List.pairwise_cons.mp h.same).1 y hy
  exact Bool.eq_false_iff.mpr fun harbitrated => hsame harbitrated hfrees

variable [Requestors σ] [Backend σ]

/-- Where the head of a port is served, it leaves the queue. -/
theorem Moment.Genuine.frees_of_served {x : Moment σ} (hx : x.Genuine)
    (hok : x.event.isBroken = false) {port now : Nat}
    (hserved : ∃ o ∈ x.event.served, o.2.port = port)
    (hvisible : (x.before.allocator.headAt? now port).isSome = true) : x.Frees port := by
  cases hp : x.before.allocator.ports[port]? with
  | none =>
    unfold Allocator.headAt? at hvisible
    rw [hp] at hvisible
    cases hvisible
  | some p =>
    obtain ⟨p', hp', hstep⟩ := hx.frontStep hok hp
    unfold Moment.Frees
    rw [Allocator.length_queuedOn hp, Allocator.length_queuedOn hp']
    exact hstep.frees.1.mpr hserved

/-- What a piece of a run does to a port that waits. -/
inductive Passes (port : Nat) (x : Moment σ) : Prop
  /-- Nobody is granted with success. -/
  | stayed (hnone : x.event.winner? = none)
      (h : x.after.allocator.arbiter = x.before.allocator.arbiter)
  /-- The port is granted, and its head leaves the queue. -/
  | reached (hwinner : x.event.winner? = some port) (hfrees : x.Frees port)
  /-- Another port is granted, which was asked no later. -/
  | passed {q : Nat} (hwinner : x.event.winner? = some q) (hne : port ≠ q)
      (hq : q < x.before.allocator.arbiter.ports)
      (hle : x.before.allocator.arbiter.ahead q ≤ x.before.allocator.arbiter.ahead port)
      (h : x.after.allocator.arbiter = x.before.allocator.arbiter.grant q)

theorem passes_of_genuine {x : Moment σ} (hx : x.Genuine) (hok : x.event.isBroken = false)
    {port : Nat} (hport : port < x.before.allocator.arbiter.ports)
    (hvisible : ∀ now ∈ x.event.arbitratedAt?,
      (x.before.allocator.headAt? now port).isSome = true) : Passes port x := by
  cases (effect_of_genuine hx hok).rotated with
  | kept hnone h => exact .stayed hnone h
  | @granted now q head hnow hwinner hgrant hserved h =>
    have hhead := hvisible now hnow
    by_cases hq : port = q
    · exact .reached (hq ▸ hwinner) (hx.frees_of_served hok (hq ▸ hserved) hhead)
    · obtain ⟨hchoose, -⟩ := Allocator.grant?_eq_some_iff.mp hgrant
      refine .passed hwinner hq (RoundRobin.lt_of_choose hchoose) ?_ h
      exact RoundRobin.ahead_le_of_choose hchoose hport ((Allocator.getD_readyMask ..).trans hhead)

/-- **A port that is asked after the waiting one is not granted.** -/
theorem Linked.never_granted {m : Assembly (Recorded σ)} {ms : List (Moment σ)} (h : Linked m ms)
    (hok : Unbroken ms) {port other : Nat} (hport : port < m.allocator.arbiter.ports)
    (hother : other < m.allocator.arbiter.ports) (hwaits : Contends port ms)
    (hlt : m.allocator.arbiter.ahead port < m.allocator.arbiter.ahead other) :
    grantsIn other ms = 0 := by
  induction h with
  | nil m => rfl
  | @cons x rest hx _ _ ih =>
    obtain ⟨hokx, hokrest⟩ := List.forall_mem_cons.mp hok
    have hwidth := (effect_of_genuine hx hokx).rotated.width_eq
    have hvisible := hwaits.visible x List.mem_cons_self
    have hrest := hwaits.tail
    cases passes_of_genuine hx hokx hport hvisible with
    | stayed hnone harbiter =>
      rw [grantsIn_cons_of_ne (by rw [hnone]; nofun)]
      rw [← harbiter] at hport hother hlt
      exact ih hokrest hport hother hrest hlt
    | reached hwinner hfrees =>
      have hne : port ≠ other := by
        rintro rfl
        exact Nat.lt_irrefl _ hlt
      rw [grantsIn_cons_of_other hwinner hne]
      exact hwaits.grantsIn_of_frees hfrees other
    | @passed q hwinner hne hq hle harbiter =>
      have hqother : q ≠ other := by
        rintro rfl
        omega
      rw [grantsIn_cons_of_other hwinner hqother]
      have hstill := RoundRobin.ahead_lt_grant hport hother hq hne hle hlt
      rw [← harbiter] at hstill
      rw [← hwidth] at hport hother
      exact ih hokrest hport hother hrest hstill

/-- Every port other than the waiting one is granted at most once. -/
theorem Linked.grantsIn_le_one {m : Assembly (Recorded σ)} {ms : List (Moment σ)}
    (h : Linked m ms)
    (hok : Unbroken ms) {port other : Nat} (hport : port < m.allocator.arbiter.ports)
    (hne : other ≠ port) (hwaits : Contends port ms) : grantsIn other ms ≤ 1 := by
  induction h with
  | nil m => exact Nat.zero_le 1
  | @cons x rest hx _ hlinked ih =>
    obtain ⟨hokx, hokrest⟩ := List.forall_mem_cons.mp hok
    have hwidth := (effect_of_genuine hx hokx).rotated.width_eq
    have hvisible := hwaits.visible x List.mem_cons_self
    have hrest := hwaits.tail
    cases passes_of_genuine hx hokx hport hvisible with
    | stayed hnone harbiter =>
      rw [grantsIn_cons_of_ne (by rw [hnone]; nofun)]
      exact ih hokrest (hwidth ▸ hport) hrest
    | reached hwinner hfrees =>
      have hlater := hwaits.grantsIn_of_frees hfrees other
      rw [grantsIn_cons_of_other hwinner hne.symm]
      omega
    | @passed q hwinner hq hqports _ harbiter =>
      by_cases hqother : q = other
      · -- from its first grant on, the other port is asked after the waiting one
        subst hqother
        have hlater := RoundRobin.ahead_lt_grant_self hport hqports hq
        rw [← harbiter] at hlater
        have hnever :=
          hlinked.never_granted hokrest (hwidth ▸ hport) (hwidth ▸ hqports) hrest hlater
        have hfirst := grantsIn_cons_self hwinner rest
        omega
      · rw [grantsIn_cons_of_other hwinner hqother]
        exact ih hokrest (hwidth ▸ hport) hrest

omit [Requestors σ] [Backend σ] in
theorem arbiter_new {config : AllocatorConfig} {a : Allocator}
    (hnew : Allocator.new config = .ok a) : a.arbiter.ports = config.numPorts := by
  rw [(Allocator.eq_of_new hnew).2]
  rfl

/-- **A waiting port is passed over at most once by each other port.**  Over any
stretch of a run in which a port has one head that is visible at every
arbitration, every other port is granted at most once with a request that goes
out or with a head that joins a load in flight, whatever else happens in the
stretch. -/
theorem granted_at_most_once {config : AllocatorConfig} {a : Allocator}
    (hnew : Allocator.new config = .ok a) (s : σ) (j : Journal) (calls : List (Call σ))
    {ms : List (Moment σ)} (hrun : ms <+: run calls ⟨a, .start s, j⟩) (hok : Unbroken ms)
    {port other : Nat} (hport : port < config.numPorts) (hne : other ≠ port)
    {pre stretch post : List (Moment σ)} (hms : ms = pre ++ (stretch ++ post))
    (hwaits : Contends port stretch) : grantsIn other stretch ≤ 1 := by
  have hlinked := (linked_run calls ⟨a, .start s, j⟩).initial hrun
  rw [hms] at hlinked hok
  have hokpre : Unbroken pre := fun x hx => hok x (List.mem_append_left _ hx)
  have hokstretch : Unbroken stretch := fun x hx =>
    hok x (List.mem_append_right _ (List.mem_append_left _ hx))
  obtain ⟨hlinkedpre, -, htail⟩ := hlinked.split
  have hwidth := hlinkedpre.width_eq hokpre
  refine htail.split.1.grantsIn_le_one hokstretch ?_ hne hwaits
  rw [hwidth, arbiter_new hnew]
  exact hport

end Waiting

/-- The last of four lanes waits with a store.  The first lane locks a line, the
second one is parked on it, the third takes a load of the first along, and the
memory refuses the store once. -/
def crowdedLanes : List (Call (Lanes × EchoMemory)) :=
  [.submit 0 0 (.load .loadLocked 1 64 4), .submit 0 0 (.load .read 2 132 4),
    .submit 0 1 (.load .loadLocked 3 64 4), .submit 0 2 (.load .read 4 128 4),
    .submit 0 3 (.store .write 5 256 [1, 2, 3, 4]), .tick 0, .tick 1, .elapse fun s =>
    (s.1, s.2.close),
    .tick 2, .elapse fun s => (s.1, s.2.reopen), .backendRetry, .tick 3]

/-- Where the four lanes begin. -/
def crowdedLanesStart : Assembly (Recorded (Lanes × EchoMemory)) :=
  ⟨.ofConfig { numPorts := 4, requestLatency := 0, enableCoalescing := true },
    .start (Lanes.plain 4, EchoMemory.new false), .start .warn⟩

/-- While the last lane waits, the first one is granted, and not again. -/
theorem granted_at_most_once_crowdedLanes :
    (run crowdedLanes crowdedLanesStart).filterMap (·.event.winner?) = [0, 2, 3] ∧
      Contends 3 ((run crowdedLanes crowdedLanesStart).drop 5) ∧
      grantsIn 0 ((run crowdedLanes crowdedLanesStart).drop 5) ≤ 1 := by
  have hnew : Allocator.new { numPorts := 4, requestLatency := 0, enableCoalescing := true } =
      .ok crowdedLanesStart.allocator := by rfl
  have hwaits : Contends 3 ((run crowdedLanes crowdedLanesStart).drop 5) :=
    ⟨by decide +kernel, by decide +kernel⟩
  have hsplit : run crowdedLanes crowdedLanesStart = (run crowdedLanes crowdedLanesStart).take 5 ++
      ((run crowdedLanes crowdedLanesStart).drop 5 ++ []) := by
    rw [List.append_nil, List.take_append_drop]
  refine ⟨by decide +kernel, hwaits, ?_⟩
  exact granted_at_most_once hnew (Lanes.plain 4, EchoMemory.new false) (.start .warn) crowdedLanes
    List.prefix_rfl (by decide +kernel) (by decide : 3 < 4) (by decide) hsplit hwaits

end MemPort
