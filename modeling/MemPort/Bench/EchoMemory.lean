import MemPort.Surroundings

/-!
# A memory that echoes

A stand-in for a memory.  It stores nothing: the byte at an address is the
lowest byte of the address.  It can be closed, given a budget of requests, and
told to answer by itself.

## Main definitions

* `echoOf` — the answer to a request.
* `EchoMemory` — the memory, with the answers that wait to be offered.

## References

`SPEC_FULL.md`, section 10.8: a memory for scenarios.
-/

namespace MemPort

/-- The answer of a memory whose bytes are the lowest bytes of their addresses. -/
def echoOf (request : BackendRequest) : BackendResponse :=
  let data := if request.cmd.returnsData then (span request.addr request.size).map lowByte else []
  ⟨request.id, data, true⟩

/-- A memory that echoes. -/
structure EchoMemory where
  /-- Whether accepted requests are answered without being asked to. -/
  isAutomatic : Bool
  /-- Whether requests are accepted at all. -/
  isOpen : Bool
  /-- How many more requests are accepted, if that is limited. -/
  budget : Option Nat
  /-- The answers that wait to be offered, oldest first. -/
  replies : List BackendResponse
  /-- Whether an answer was refused and has not been asked for again. -/
  isBlocked : Bool
  deriving Repr

namespace EchoMemory

/-- An open memory without a limit. -/
def new (isAutomatic : Bool) : EchoMemory := ⟨isAutomatic, true, none, [], false⟩

/-- Accept nothing. -/
def close (m : EchoMemory) : EchoMemory := { m with isOpen := false }

/-- Accept everything. -/
def reopen (m : EchoMemory) : EchoMemory := { m with isOpen := true, budget := none }

/-- Accept a number of requests. -/
def setBudget (m : EchoMemory) (n : Nat) : EchoMemory := { m with budget := some n }

/-- Accept a request if the memory is open and has budget. -/
def accept (m : EchoMemory) (request : BackendRequest) : Bool × EchoMemory :=
  if !m.isOpen || m.budget == some 0 then (false, m)
  else
    let replies := if m.isAutomatic then m.replies ++ [echoOf request] else m.replies
    (true, { m with budget := m.budget.map (· - 1), replies })

instance : Backend EchoMemory where
  accept _ request m := .ok (.quiet (m.accept request))
  notifyResponseRetry m := .quiet { m with isBlocked := false }
  accessFunctional request m := .ok (.quiet (echoOf request, m))

end EchoMemory

end MemPort
