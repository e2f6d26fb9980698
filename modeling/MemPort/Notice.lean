import MemPort.Packet
import MemPort.Text.Hex

/-!
# Notices

What the components report about their work, as data.  A component does not
print: it returns the notices of a step with its result (`Logged`), and whoever
runs the step keeps those that its `Journal` asks for.

## Main definitions

* `Notice`, `Notice.level`, `Notice.text` — a report, its weight and its
  wording.
* `Logged` — a result with the notices that arose on the way, oldest first.
* `Journal` — the notices kept so far.

## References

`SPEC_FULL.md`, section 10.3: what is reported, and at which level.
-/

namespace MemPort

/-- The weight of a notice. -/
inductive Level where
  /-- Something that deserves attention. -/
  | warn
  /-- A milestone. -/
  | info
  /-- A detail. -/
  | debug
  deriving DecidableEq, Repr, Inhabited

namespace Level

/-- How much detail a level admits. -/
def detail : Level → Nat
  | warn => 0
  | info => 1
  | debug => 2

/-- The name under which a level is reported. -/
def label : Level → String
  | warn => "WARN"
  | info => "INFO"
  | debug => "DEBUG"

/-- The level that a verbosity asks for. -/
def ofVerbosity : Nat → Level
  | 0 => warn
  | 1 => info
  | _ => debug

end Level

/-- A report of one of the components. -/
inductive Notice where
  /-- A port received a transaction. -/
  | receiving (port : Nat) (txn : Transaction)
  /-- A port had no room. -/
  | portFull (port : Nat) (capacity : Nat)
  /-- The memory's answer arrived. -/
  | receivingResponse (id : Nat) (length : Nat)
  /-- There was no room for the memory's answer. -/
  | responseQueueFull (id : Nat)
  /-- The memory takes requests again. -/
  | backendRetry
  /-- The memory refused a request. -/
  | backendRefused (id : Nat)
  /-- A lane is told of an exclusive access of another. -/
  | snooping (lane : Nat) (snoop : Snoop)
  /-- The arbiter granted a port. -/
  | granted (ready : List Bool) (port : Nat) (cmd : Command) (addr : Nat)
  /-- An access ran into a lock. -/
  | lockHit (port : Nat) (cmd : Command) (addr : Nat) (owner : Nat)
  /-- A lock was dropped. -/
  | lockReleased (addr : Nat) (owner : Nat)
  /-- Locks ran out of time. -/
  | locksExpired (count : Nat)
  /-- Loads of one line joined a request before it was sent. -/
  | foldedInSpace (count : Nat) (line : Nat)
  /-- Loads joined a request in flight. -/
  | foldedInTime (count : Nat) (id : Nat)
  /-- A request was sent. -/
  | sent (id : Nat) (cmd : Command) (addr : Nat) (origins : Nat)
  /-- A requestor is told to try again. -/
  | sendingRetry (port : Nat)
  /-- An answer is handed out. -/
  | responding (id : Nat) (cmd : Command) (line : Nat) (origins : Nat)
  /-- The memory is told to offer its answer again. -/
  | responseRetry
  /-- The progress check runs. -/
  | checkingProgress (now : Nat)
  /-- A port makes no progress. -/
  | stalled (port : Nat) (cmd : Command) (addr : Nat)
  /-- A requestor still waits for leave to try again. -/
  | needsRetry (port : Nat)
  /-- An access bypasses the queues. -/
  | functional (port : Nat) (txn : Transaction)
  /-- The memory's answer was refused. -/
  | answerRefused (id : Nat)
  /-- An access to the memory failed. -/
  | accessFailed (id : Nat) (cause : String)
  /-- A generator's transaction was refused. -/
  | tagRefused (port : Nat) (tag : Nat)
  /-- A generator saw something it did not expect. -/
  | generatorFault (port : Nat) (cause : String)
  /-- The simulation is over. -/
  | finished (cycle : Nat)
  /-- A configuration section is missing. -/
  | sectionMissing
  deriving DecidableEq, Repr

namespace Notice

/-- The weight of a notice. -/
def level : Notice → Level
  | lockHit .. | stalled .. | needsRetry _ | accessFailed .. | generatorFault ..
  | sectionMissing => .warn
  | finished _ => .info
  | _ => .debug

/-- A mask as a list of truth values. -/
def maskText (mask : List Bool) : String :=
  "[" ++ ", ".intercalate (mask.map fun b => if b then "true" else "false") ++ "]"

/-- A command and its address. -/
def accessText (cmd : Command) (addr : Nat) : String := s!"{cmd.label} @ {Hex.number addr}"

/-- The wording of a notice. -/
def text : Notice → String
  | receiving port txn =>
      s!"port {port}: receiving {accessText txn.cmd txn.addr} ({txn.size} bytes, tag {txn.tag})"
  | portFull port capacity => s!"port {port} is full ({capacity} entries)"
  | receivingResponse id length => s!"receiving response {id} ({length} bytes)"
  | responseQueueFull id => s!"response queue full, backend must retry response {id}"
  | backendRetry => "backend retry, unblocking issue"
  | backendRefused id => s!"backend refused request {id}, blocking until retry"
  | snooping lane snoop =>
      s!"port {snoop.source} is snooping port {lane} ({snoop.kind.label})"
  | granted ready port cmd addr =>
      s!"requesting ports {maskText ready}, granted port {port} ({accessText cmd addr})"
  | lockHit port cmd addr owner =>
      s!"port {port}: {accessText cmd addr} hits a lock held by port {owner}"
  | lockReleased addr owner => s!"lock on {Hex.number addr} (port {owner}) released"
  | locksExpired count => s!"{count} lock(s) expired"
  | foldedInSpace count line =>
      s!"coalesced {count} same-cycle read(s) on line {Hex.number line}"
  | foldedInTime count id => s!"coalesced {count} request(s) into in-flight {id}"
  | sent id cmd addr origins => s!"sent request {id} ({accessText cmd addr}, {origins} origin(s))"
  | sendingRetry port => s!"port {port}: sending retry"
  | responding id cmd line origins =>
      s!"responding to request {id} ({accessText cmd line}, {origins} origin(s))"
  | responseRetry => "response queue drained, sending retry to backend"
  | checkingProgress now => s!"checking forward progress at cycle {now}"
  | stalled port cmd addr => s!"port {port}: {accessText cmd addr} is not making forward progress"
  | needsRetry port => s!"port {port} needs retry"
  | functional port txn =>
      s!"port {port}: functional {accessText txn.cmd txn.addr} ({txn.size} bytes)"
  | answerRefused id => s!"allocator refused response {id}, waiting for retry"
  | accessFailed id cause => s!"backend access {id} failed: {cause}"
  | tagRefused port tag => s!"port {port}: tag {tag} refused, waiting for retry"
  | generatorFault port cause => s!"port {port}: {cause}"
  | finished cycle => s!"simulation finished after {cycle} cycles"
  | sectionMissing => "config section not found"

/-- A notice as a line of its level and wording. -/
def line (n : Notice) : String := s!"{n.level.label} {n.text}"

end Notice

/-! ### Results with notices -/

/-- A result with the notices that arose on the way, oldest first. -/
structure Logged (α : Type) where
  /-- The result. -/
  value : α
  /-- What was reported. -/
  notices : List Notice
  deriving Repr

namespace Logged

/-- A result without notices. -/
def quiet (a : α) : Logged α := ⟨a, []⟩

/-- Change the result and keep the notices. -/
def map (f : α → β) (l : Logged α) : Logged β := ⟨f l.value, l.notices⟩

/-- Go on with the result, reporting after what was reported. -/
def andThen (l : Logged α) (f : α → Logged β) : Logged β :=
  let r := f l.value
  ⟨r.value, l.notices ++ r.notices⟩

@[simp] theorem value_quiet (a : α) : (quiet a).value = a := rfl

@[simp] theorem notices_quiet (a : α) : (quiet a).notices = [] := rfl

@[simp] theorem value_map (f : α → β) (l : Logged α) : (l.map f).value = f l.value := rfl

@[simp] theorem notices_map (f : α → β) (l : Logged α) : (l.map f).notices = l.notices := rfl

@[simp] theorem value_andThen (l : Logged α) (f : α → Logged β) :
    (l.andThen f).value = (f l.value).value := rfl

@[simp] theorem notices_andThen (l : Logged α) (f : α → Logged β) :
    (l.andThen f).notices = l.notices ++ (f l.value).notices := rfl

end Logged

/-! ### Journals -/

/-- The notices kept so far, newest first, and the level up to which they are
kept. -/
structure Journal where
  /-- The most detailed level that is kept. -/
  level : Level
  /-- What was kept, newest first. -/
  records : List Notice
  deriving Repr

namespace Journal

/-- A journal with nothing in it. -/
def start (level : Level) : Journal := ⟨level, []⟩

/-- Keep a notice if its level asks for it. -/
def add (j : Journal) (n : Notice) : Journal :=
  if n.level.detail ≤ j.level.detail then { j with records := n :: j.records } else j

/-- Keep what is asked for of several notices. -/
def addAll (j : Journal) (ns : List Notice) : Journal := ns.foldl add j

/-- The kept notices as lines, oldest first. -/
def lines (j : Journal) : List String := j.records.reverse.map Notice.line

end Journal

end MemPort
