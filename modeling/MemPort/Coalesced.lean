import MemPort.Failure

/-!
# Coalesced requests

Loads of one line share a single load of the whole line; every other access goes
to the memory alone and as it is.  A `Coalesced` request is what stands for one
or more transactions on their way to the memory: the transaction that triggered
it and those that were folded into it later, in the order in which they joined.

## Main definitions

* `checkLineSize` — lines have at least one byte.
* `checkLineFit` — a transaction must not spill past the end of its line.
* `Coalesced.ofTransaction`, `Coalesced.join?`, `Coalesced.absorb?` — how a
  request comes about.
* `Coalesced.tryJoin`, `Coalesced.tryAbsorb` — the same as calls that change
  the request or leave it.
* `Coalesced.toBackend` — the request that the memory sees.
* `Coalesced.fanOut` — one completion for every transaction behind the
  memory's answer.

## References

`SPEC_FULL.md`, section 3: requests and the transactions merged into them;
section 4.4, step 5, and section 4.5: how they come about and are fanned out.
-/

namespace MemPort

/-- A transaction with the port it came from. -/
structure Origin where
  /-- The port. -/
  port : Nat
  /-- The transaction. -/
  txn : Transaction
  deriving DecidableEq, Repr

/-- Fail where lines have no bytes: the start of a line is found with the number
below its size. -/
def checkLineSize (lineSize : Nat) : Except Assertion Unit :=
  if lineSize = 0 then .error .overflow else .ok ()

/-- Refuse a transaction whose bytes spill past the end of its line. -/
def checkLineFit (port : Nat) (txn : Transaction) (lineSize : Nat) :
    Except InvariantViolation Unit :=
  let reach := txn.stop - blockBase txn.addr lineSize
  if lineSize < reach then .error (.oversizedAccess port txn.addr reach lineSize) else .ok ()

/-- One access to the memory in place of one or more transactions. -/
structure Coalesced where
  /-- The start of the line. -/
  line : Nat
  /-- The transaction that triggered the access. -/
  first : Origin
  /-- The transactions folded in, in the order in which they joined. -/
  folded : List Origin
  deriving DecidableEq, Repr

namespace Coalesced

/-- The request of a single transaction. -/
def ofTransaction (port : Nat) (txn : Transaction) (lineSize : Nat) : Coalesced :=
  ⟨blockBase txn.addr lineSize, ⟨port, txn⟩, []⟩

/-- The command of the access. -/
def cmd (c : Coalesced) : Command := c.first.txn.cmd

/-- Where in its line the triggering transaction starts. -/
def offset (c : Coalesced) : Nat := c.first.txn.addr - c.line

/-- Where, counted from the start of the line, the triggering transaction ends. -/
def reach (c : Coalesced) : Nat := c.offset + c.first.txn.size

/-- The transactions behind the access, in the order in which they joined. -/
def origins (c : Coalesced) : List Origin := c.first :: c.folded

/-- The number of transactions behind the access. -/
def size (c : Coalesced) : Nat := c.origins.length

/-- The ports behind the access, in the order in which they joined. -/
def ports (c : Coalesced) : List Nat := c.origins.map (·.port)

/-! ### Folding -/

/-- Whether a transaction could share the access. -/
def canJoin (c : Coalesced) (txn : Transaction) (lineSize : Nat) : Bool :=
  c.cmd.isCoalescable && txn.cmd == c.cmd && blockBase txn.addr lineSize == c.line

/-- Add a transaction without asking. -/
def add (c : Coalesced) (o : Origin) : Coalesced := { c with folded := c.folded ++ [o] }

/-- Add a transaction that can share the access. -/
def join? (c : Coalesced) (o : Origin) (lineSize : Nat) : Option Coalesced :=
  if c.canJoin o.txn lineSize then some (c.add o) else none

/-- Add all transactions of a later request that can share the access. -/
def absorb? (c other : Coalesced) : Option Coalesced :=
  if c.cmd.isCoalescable && other.cmd == c.cmd && other.line == c.line then
    some { c with folded := c.folded ++ other.origins }
  else none

/-- Fold a transaction in if it can share the access.  The result says whether
it could, and has the request as it is then. -/
def tryJoin (c : Coalesced) (o : Origin) (lineSize : Nat) : Bool × Coalesced :=
  match c.join? o lineSize with
  | some joined => (true, joined)
  | none => (false, c)

/-- Absorb a later request if it can share the access.  The result has the
number of transactions that joined, or hands the later request back, and has the
earlier one as it is then. -/
def tryAbsorb (c other : Coalesced) : Except Coalesced Nat × Coalesced :=
  match c.absorb? other with
  | some merged => (.ok other.size, merged)
  | none => (.error other, c)

@[simp] theorem origins_add (c : Coalesced) (o : Origin) : (c.add o).origins = c.origins ++ [o] :=
  rfl

@[simp] theorem cmd_add (c : Coalesced) (o : Origin) : (c.add o).cmd = c.cmd := rfl

@[simp] theorem line_add (c : Coalesced) (o : Origin) : (c.add o).line = c.line := rfl

/-- An absorbed request's transactions follow those that were there. -/
theorem origins_absorb? {c other d : Coalesced} (h : c.absorb? other = some d) :
    d.origins = c.origins ++ other.origins ∧ d.cmd = c.cmd ∧ d.line = c.line := by
  unfold absorb? at h
  split at h
  · cases h
    exact ⟨rfl, rfl, rfl⟩
  · cases h

/-! ### To the memory and back -/

/-- The request that the memory sees: loads fetch their line, all else goes as
it is.

That all else stands for a single transaction is not asserted here, and only the
first one is looked at: joining and absorbing let loads in alone
(`Merging.members_of_ne_read`), and so does a turn that forms a request
(`Assembly.dispatches_of_forming`). -/
def toBackend (c : Coalesced) (id : Nat) (lineSize : Nat) : BackendRequest :=
  if c.cmd.isCoalescable then ⟨id, c.first.port, c.cmd, c.line, lineSize, []⟩
  else ⟨id, c.first.port, c.cmd, c.first.txn.addr, c.first.txn.size, c.first.txn.data⟩

/-- The completion of a load whose bytes are cut out of the answer, if it is
long enough. -/
def slice (line : Nat) (response : BackendResponse) (o : Origin) :
    Except InvariantViolation (Nat × Response) :=
  let start := o.txn.addr - line
  let stop := start + o.txn.size
  if stop ≤ response.data.length then
    .ok (o.port, o.txn.completion ((response.data.drop start).take o.txn.size) true)
  else .error (.truncatedResponse response.id response.data.length stop)

/-- One completion for every transaction, in the order in which they joined. -/
def fanOut (c : Coalesced) (response : BackendResponse) :
    Except InvariantViolation (List (Nat × Response)) :=
  if c.cmd.isCoalescable then c.origins.mapM (slice c.line response)
  else .ok (c.origins.map fun o => (o.port, o.txn.completion response.data response.success))

end Coalesced

end MemPort
