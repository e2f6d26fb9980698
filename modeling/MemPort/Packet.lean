import MemPort.Word

/-!
# Packets

What travels between requestors, the allocator and the memory: transactions and
their responses on the requestor side, requests and their responses on the
memory side, and the snoops that tell other lanes about an exclusive access.

## Main definitions

* `Command` — the five accesses, with the classes `isCoalescable`,
  `isExclusive`, `isLinked`, `returnsData` and the snoop an access causes,
  `snoopKind?`.
* `Transaction`, `Response` — an access as a requestor asks for it, and its
  completion.
* `BackendRequest`, `BackendResponse` — an access as the memory sees it, and
  its answer.
* `Snoop` — the notice of an exclusive access.

## References

`SPEC_FULL.md`, section 3: transactions; section 10.1: what travels in either
direction; section 10.6, item 6: the kinds of snoops.
-/

namespace MemPort

/-- Why a lane loses its copy: a plain exclusive access, or a store-conditional. -/
inductive SnoopKind where
  /-- A store or a swap. -/
  | upgrade
  /-- A store-conditional. -/
  | scUpgrade
  deriving DecidableEq, Repr, Inhabited

/-- The name under which a snoop is reported. -/
def SnoopKind.label : SnoopKind → String
  | .upgrade => "Upgrade"
  | .scUpgrade => "ScUpgrade"

/-- The kinds of access. -/
inductive Command where
  /-- A plain load. -/
  | read
  /-- A plain store. -/
  | write
  /-- A load that reserves its address. -/
  | loadLocked
  /-- A store that takes effect only while the reservation stands. -/
  | storeCond
  /-- A store that returns what was there before. -/
  | swap
  deriving DecidableEq, Repr, Inhabited

namespace Command

/-- The name under which a command is reported. -/
def label : Command → String
  | read => "Read"
  | write => "Write"
  | loadLocked => "LoadLocked"
  | storeCond => "StoreCond"
  | swap => "Swap"

/-- Only plain loads may share one access to the memory. -/
def isCoalescable : Command → Bool
  | read => true
  | _ => false

/-- Accesses that invalidate the copies of other lanes. -/
def isExclusive : Command → Bool
  | write | storeCond | swap => true
  | _ => false

/-- The two halves of a load-locked, store-conditional pair. -/
def isLinked : Command → Bool
  | loadLocked | storeCond => true
  | _ => false

/-- Accesses whose response carries bytes. -/
def returnsData : Command → Bool
  | read | loadLocked | swap => true
  | _ => false

/-- The snoop that an access sends to the other lanes. -/
def snoopKind? : Command → Option SnoopKind
  | storeCond => some .scUpgrade
  | write | swap => some .upgrade
  | read | loadLocked => none

theorem isCoalescable_iff (c : Command) : c.isCoalescable = true ↔ c = read := by
  cases c <;> simp [isCoalescable]

/-- Exactly the exclusive accesses are snooped. -/
theorem isSome_snoopKind? (c : Command) : c.snoopKind?.isSome = c.isExclusive := by
  cases c <;> rfl

end Command

/-- An access as a requestor submits it.  The allocator never changes one. -/
structure Transaction where
  /-- The requestor's own name for the access. -/
  tag : Nat
  /-- What to do. -/
  cmd : Command
  /-- The first byte touched. -/
  addr : Nat
  /-- The number of bytes touched. -/
  size : Nat
  /-- The bytes to store. -/
  data : Bytes
  /-- When the requestor made the access. -/
  issuedAt : Nat
  deriving DecidableEq, Repr, Inhabited

namespace Transaction

/-- An access that brings no bytes along. -/
def load (cmd : Command) (tag : Nat) (addr size : Nat) : Transaction :=
  ⟨tag, cmd, addr, size, [], 0⟩

/-- An access that stores the bytes it brings along. -/
def store (cmd : Command) (tag : Nat) (addr : Nat) (data : Bytes) : Transaction :=
  ⟨tag, cmd, addr, data.length, data, 0⟩

/-- The address after the last byte touched, or the last address where there is
none after it. -/
def stop (t : Transaction) : Nat := satAdd t.addr t.size

end Transaction

/-- The completion of a transaction, handed to the requestor that submitted it. -/
structure Response where
  /-- The tag of the transaction. -/
  tag : Nat
  /-- Its command. -/
  cmd : Command
  /-- Its address. -/
  addr : Nat
  /-- The bytes it asked for. -/
  data : Bytes
  /-- Whether it took effect; only a store-conditional can fail. -/
  success : Bool
  deriving DecidableEq, Repr, Inhabited

namespace Transaction

/-- The completion of a transaction with the given bytes and outcome. -/
def completion (t : Transaction) (data : Bytes) (success : Bool) : Response :=
  ⟨t.tag, t.cmd, t.addr, data, success⟩

end Transaction

/-- An access as it is offered to the memory. -/
structure BackendRequest where
  /-- The number under which the answer comes back. -/
  id : Nat
  /-- The port on whose behalf the access is made. -/
  origin : Nat
  /-- What to do. -/
  cmd : Command
  /-- The first byte touched. -/
  addr : Nat
  /-- The number of bytes touched. -/
  size : Nat
  /-- The bytes to store. -/
  data : Bytes
  deriving DecidableEq, Repr, Inhabited

/-- The memory's answer to a request. -/
structure BackendResponse where
  /-- The number of the request. -/
  id : Nat
  /-- The bytes read. -/
  data : Bytes
  /-- Whether the access took effect. -/
  success : Bool
  deriving DecidableEq, Repr, Inhabited

/-- The notice that a lane took a range exclusive, sent to every other lane. -/
structure Snoop where
  /-- The first byte of the range. -/
  addr : Nat
  /-- The number of bytes. -/
  size : Nat
  /-- The access behind it. -/
  kind : SnoopKind
  /-- The lane that made the access. -/
  source : Nat
  deriving DecidableEq, Repr, Inhabited

/-- The snoop of an access by a port, if the access is exclusive. -/
def Command.snoop? (cmd : Command) (addr size : Nat) (source : Nat) : Option Snoop :=
  cmd.snoopKind?.map fun kind => ⟨addr, size, kind, source⟩

end MemPort
