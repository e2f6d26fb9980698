import MemPort.Allocator.Assembly

/-!
# The watchdog

Once in a period the allocator looks whether it makes progress.  A transaction
at the front of a port that has waited for longer than a period, parked or not,
means that its port is starved.

## Main definitions

* `Allocator.inspect` — look at the ports in order.
* `Assembly.checkProgress` — the check, when it is due.

## References

`SPEC_FULL.md`, section 4.6; section 10.6, item 4.
-/

namespace MemPort

namespace Allocator

/-- Look at ports in order, and stop at one whose oldest transaction has waited
too long. -/
def inspect (now period : Nat) : List RequestorPort → Logged (Option LivenessFailure)
  | [] => .quiet none
  | p :: rest =>
      let reminder := if p.needsRetry then [Notice.needsRetry p.id] else []
      match p.queue.front? with
      | some head =>
          let waited := head.age now
          if period < waited then
            ⟨some (.portStalled p.id head.payload.addr waited),
              [.stalled p.id head.payload.cmd head.payload.addr]⟩
          else (⟨(), reminder⟩ : Logged Unit).andThen fun _ => inspect now period rest
      | none => (⟨(), reminder⟩ : Logged Unit).andThen fun _ => inspect now period rest

/-- Whether nothing at all has happened for longer than a period, where that is
a failure. -/
def idleFailure? (a : Allocator) (now : Nat) : Option LivenessFailure :=
  if a.config.checkGlobalProgress && a.config.progressCheckPeriod < now - a.lastActive then
    some (.globalIdle a.lastActive now)
  else none

end Allocator

namespace Assembly

variable {σ : Type}

/-- Check progress, if the time for it has come, and set the time of the next
check. -/
def checkProgress (m : Assembly σ) (now : Nat) : Outcome σ Unit :=
  if now < m.allocator.nextProgressCheck then .ok () m
  else
    let period := m.allocator.config.progressCheckPeriod
    let m := m.update fun a => { a with nextProgressCheck := satAdd now period }
    let m := m.note (.checkingProgress now)
    let seen := Allocator.inspect now period m.allocator.ports
    let m := m.noteAll seen.notices
    match seen.value.or (m.allocator.idleFailure? now) with
    | some l => .error (.liveness l) m
    | none => .ok () m

end Assembly

end MemPort
