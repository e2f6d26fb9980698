import MemPort.Memory

/-!
# What was stored last

A memory is read, written and swapped at any addresses, and the stores may
overlap in any way.  Its contents can be told from what was done to it: at each
address there is the byte that the last store to this address has put there, and
zero where there was none.  Stores that were refused do not count, and an access
is refused if it has no bytes or if one of them lies outside the memory.

What was done is written down in a transcript, access by access, with what came
of each.  An access that succeeds puts its own bytes, if it stores any, over
what was there, and leaves the others alone.  The entry that it adds to the
transcript does the same to the bytes that the transcript shows as the last
ones.

## Main definitions

* `Memory.Access`, `Memory.access` — accesses, what comes of one, and the
  memory after it.
* `Memory.transcript`, `Memory.after` — what comes of some accesses, and the
  memory after them.
* `Memory.lastByte` — the byte that was put at an address last.
* `Memory.Remembers` — what a memory does after the accesses of a transcript.

## Main results

* `Memory.access_of_fits`, `Memory.access_of_not_fits` — what an access comes
  to.
* `Memory.byteAt_access`, `Memory.byteAt_after` — the bytes after one access,
  and after some.
* `memory_remembers` — a memory is a map of bytes below its size, which shows
  what was stored last.

## References

`SPEC_FULL.md`, section 10.1: a sized store of bytes with bounds that are
checked.
-/

namespace MemPort

/-- A store puts a byte over what was there at each address that it covers. -/
theorem ByteMap.byteAt_store_getD (c : ByteMap) (addr : Nat) (data : Bytes) (a : Nat) :
    (c.store addr data).byteAt a = (if addr ≤ a then data[a - addr]? else none).getD
      (c.byteAt a) := by
  rw [byteAt_store]
  split
  · exact List.getD_eq_getElem?_getD
  · rfl

namespace Memory

/-! ### Accesses -/

/-- An access to a memory. -/
inductive Access where
  /-- Get the bytes at consecutive addresses. -/
  | read (addr count : Nat)
  /-- Put bytes at consecutive addresses. -/
  | write (addr : Nat) (data : Bytes)
  /-- Put bytes at consecutive addresses, and get what was there before. -/
  | swap (addr : Nat) (data : Bytes)
  deriving DecidableEq, Repr

namespace Access

/-- The address of its first byte. -/
def addr : Access → Nat
  | read addr _ | write addr _ | swap addr _ => addr

/-- The number of bytes that it touches. -/
def count : Access → Nat
  | read _ count => count
  | write _ data | swap _ data => data.length

/-- It touches a byte, and none outside a memory of some size. -/
def Fits (x : Access) (size : Nat) : Prop := 0 < x.count ∧ x.addr + x.count ≤ size

instance (x : Access) (size : Nat) : Decidable (x.Fits size) :=
  inferInstanceAs (Decidable (_ ∧ _))

/-- Why a memory of some size refuses it, if it does not fit. -/
def fault (x : Access) (size : Nat) : MemoryFault :=
  if x.count = 0 then .zeroLength x.addr else .outOfRange x.count x.addr size

/-- What it gets where there are some bytes.  A write gets nothing. -/
def answer (bytes : Nat → UInt8) : Access → Bytes
  | read addr count => (span addr count).map bytes
  | write _ _ => []
  | swap addr data => (span addr data.length).map bytes

/-- The byte that it puts at an address, if it stores one there. -/
def byteFor? (a : Nat) : Access → Option UInt8
  | read _ _ => none
  | write addr data | swap addr data => if addr ≤ a then data[a - addr]? else none

/-- Some bytes after it. -/
def storedIn (c : ByteMap) : Access → ByteMap
  | read _ _ => c
  | write addr data | swap addr data => c.store addr data

/-- **An access puts its own bytes over what was there.** -/
theorem byteAt_storedIn (x : Access) (c : ByteMap) (a : Nat) :
    (x.storedIn c).byteAt a = (x.byteFor? a).getD (c.byteAt a) := by
  cases x with
  | read addr count => rfl
  | write addr data => exact c.byteAt_store_getD addr data a
  | swap addr data => exact c.byteAt_store_getD addr data a

end Access

/-- What an access gets, and the memory after it. -/
def perform (m : Memory) : Access → Except MemoryFault (Bytes × Memory)
  | .read addr count => (m.read addr count).map fun data => (data, m)
  | .write addr data => (m.write addr data).map fun m => ([], m)
  | .swap addr data => m.swap addr data

/-- What comes of an access, and the memory after it.  A refused access leaves
the memory as it is. -/
def access (m : Memory) (x : Access) : Except MemoryFault Bytes × Memory :=
  match m.perform x with
  | .ok (data, m) => (.ok data, m)
  | .error fault => (.error fault, m)

variable {m : Memory} {x : Access} {size : Nat}

theorem check_of_fits (h : x.Fits m.size) : m.check x.addr x.count = .ok () :=
  (check_eq_ok_iff m x.addr x.count).mpr h

theorem check_of_not_fits (h : ¬ x.Fits m.size) :
    m.check x.addr x.count = .error (x.fault m.size) := by
  rw [check_eq]
  unfold Access.fault
  by_cases hcount : x.count = 0
  · rw [if_pos hcount, if_pos hcount]
  · have hout : m.size < x.addr + x.count := by
      unfold Access.Fits at h
      omega
    rw [if_neg hcount, if_neg hcount, if_pos hout]

/-- All accesses are checked alike, and a swap, which is checked twice, is
refused by the first check. -/
theorem perform_eq (m : Memory) (x : Access) : m.perform x =
    (m.check x.addr x.count).map fun _ =>
      (x.answer m.contents.byteAt, { m with contents := x.storedIn m.contents }) := by
  cases x with
  | read addr count =>
    simp only [perform, read, Access.addr, Access.count]
    cases m.check addr count <;> rfl
  | write addr data =>
    simp only [perform, write, Access.addr, Access.count]
    cases m.check addr data.length <;> rfl
  | swap addr data =>
    simp only [perform, swap, read, write, Access.addr, Access.count]
    cases m.check addr data.length <;> rfl

/-- **An access that fits gets the bytes that are there, and puts its own.** -/
theorem access_of_fits (h : x.Fits m.size) : m.access x =
    (.ok (x.answer m.contents.byteAt), { m with contents := x.storedIn m.contents }) := by
  unfold access
  rw [perform_eq, check_of_fits h]
  rfl

/-- **An access that does not fit is refused**, and changes nothing. -/
theorem access_of_not_fits (h : ¬ x.Fits m.size) : m.access x = (.error (x.fault m.size), m) := by
  unfold access
  rw [perform_eq, check_of_not_fits h]
  rfl

theorem access_eq_ok_iff : (∃ data, (m.access x).1 = .ok data) ↔ x.Fits m.size := by
  constructor
  · rintro ⟨data, hdata⟩
    by_cases h : x.Fits m.size
    · exact h
    · rw [access_of_not_fits h] at hdata
      cases hdata
  · intro h
    exact ⟨_, congrArg Prod.fst (access_of_fits h)⟩

/-! ### Transcripts -/

/-- An access that was made. -/
structure Entry where
  /-- The access. -/
  access : Access
  /-- What it got, or why it was refused. -/
  outcome : Except MemoryFault Bytes

/-- The byte that was put at an address, if there was one: an access that was
refused has not put any. -/
def Entry.byteFor? (a : Nat) (e : Entry) : Option UInt8 :=
  match e.outcome with
  | .ok _ => e.access.byteFor? a
  | .error _ => none

/-- The byte that was put at an address last, or zero if there was none. -/
def lastByte (entries : List Entry) (a : Nat) : UInt8 :=
  (entries.filterMap (·.byteFor? a)).getLast?.getD 0

/-- What comes of some accesses that are made one after the other. -/
def transcript (m : Memory) : List Access → List Entry
  | [] => []
  | x :: rest => ⟨x, (m.access x).1⟩ :: (m.access x).2.transcript rest

/-- The memory after some accesses. -/
def after (m : Memory) : List Access → Memory
  | [] => m
  | x :: rest => (m.access x).2.after rest

/-- An access does not change the size. -/
theorem size_access (m : Memory) (x : Access) : (m.access x).2.size = m.size := by
  by_cases h : x.Fits m.size
  · rw [access_of_fits h]
  · rw [access_of_not_fits h]

/-- **The bytes after an access** are those that its entry shows, over those
that were there. -/
theorem byteAt_access (m : Memory) (x : Access) (a : Nat) : (m.access x).2.contents.byteAt a =
    (Entry.byteFor? a ⟨x, (m.access x).1⟩).getD (m.contents.byteAt a) := by
  by_cases h : x.Fits m.size
  · rw [access_of_fits h]
    exact x.byteAt_storedIn m.contents a
  · rw [access_of_not_fits h]
    rfl

theorem size_after (m : Memory) (xs : List Access) : (m.after xs).size = m.size := by
  induction xs generalizing m with
  | nil => rfl
  | cons x rest ih => rw [after, ih, size_access]

/-- **The bytes after some accesses** are those that were put last, over those
that were there before. -/
theorem byteAt_after (m : Memory) (xs : List Access) (a : Nat) : (m.after xs).contents.byteAt a =
    ((m.transcript xs).filterMap (·.byteFor? a)).getLast?.getD (m.contents.byteAt a) := by
  induction xs generalizing m with
  | nil => rfl
  | cons x rest ih =>
    rw [after, ih, byteAt_access, transcript, List.filterMap_cons]
    cases Entry.byteFor? a ⟨x, (m.access x).1⟩ with
    | none => rfl
    | some b =>
      -- what the others put counts before the byte of the first
      simp only [List.getLast?_cons, Option.getD_some]

/-! ### Memories that remember -/

/-- What a memory of some size does with an access, if a transcript shows what
was done to it before. -/
structure Remembers (m : Memory) (size : Nat) (entries : List Entry) : Prop where
  /-- It has its size. -/
  size_eq : m.size = size
  /-- The accesses that succeed are those that touch a byte and none outside. -/
  succeeds_iff : ∀ x : Access, (∃ data, (m.access x).1 = .ok data) ↔ x.Fits size
  /-- One that succeeds gets the bytes that were put last. -/
  answers : ∀ (x : Access) (data : Bytes), (m.access x).1 = .ok data →
    data = x.answer (lastByte entries)
  /-- One that does not is refused for what is wrong with it, and changes
  nothing. -/
  refuses : ∀ x : Access, ¬ x.Fits size → m.access x = (.error (x.fault size), m)

theorem remembers_of_byteAt {entries : List Entry} (hsize : m.size = size)
    (hbytes : ∀ a, m.contents.byteAt a = lastByte entries a) : m.Remembers size entries where
  size_eq := hsize
  succeeds_iff x := by
    rw [access_eq_ok_iff, hsize]
  answers x data hdata := by
    have hfits : x.Fits m.size := access_eq_ok_iff.mp ⟨data, hdata⟩
    rw [access_of_fits hfits, funext hbytes] at hdata
    exact (Except.ok.inj hdata).symm
  refuses x hout := by
    rw [← hsize] at hout ⊢
    exact access_of_not_fits hout

end Memory

/-- **A memory is a map of bytes below its size, which shows what was stored
last.**  A memory can have any size that fits the storage.  Take one that is
new, and make any reads, writes and swaps at any addresses, which may overlap
and may be refused.  Its size is as before.  The next access succeeds just if it
touches a byte and the sum of its address and its length, as numbers without a
bound, is at most the size.  Then a read or a swap gets, at each address, the
byte that the last store to it has put there, or zero where no store that
succeeded covers it.  An access that does not succeed says why, and leaves all
bytes as they are. -/
theorem memory_remembers (size : Nat) :
    (storageBytes ≤ size → Memory.new size = .error .storageLimit) ∧
    (size < storageBytes → ∃ new, Memory.new size = .ok new ∧
      ∀ earlier : List Memory.Access,
      (new.after earlier).Remembers size (new.transcript earlier)) := by
  constructor
  · intro hlarge
    exact dif_pos hlarge
  · intro hfits
    refine ⟨.ofSize size (decide_eq_true hfits), dif_neg (Nat.not_le.mpr hfits),
      fun earlier => ?_⟩
    apply Memory.remembers_of_byteAt
    · exact Memory.size_after _ earlier
    · intro a
      rw [Memory.byteAt_after]
      unfold Memory.lastByte Memory.ofSize
      rw [ByteMap.byteAt_zero]

/-- Stores that overlap, one with its last byte outside a memory of eight bytes,
and one whose end is not a word. -/
def overlappingStores : List Memory.Access :=
  [.write 2 [1, 2, 3, 4], .swap 1 [5, 6], .write 6 [7, 7, 7], .write maxWord [8, 8], .write 4 [9]]

/-- Afterwards each byte is that of the last of the other stores, a swap up to
the end gets the last four, and a read just behind the end is refused. -/
theorem memory_remembers_overlappingStores :
    8 < storageBytes ∧ ∃ new, Memory.new 8 = .ok new ∧
    ((new.after overlappingStores).access (.read 0 8)).1 = .ok [0, 5, 6, 2, 9, 4, 0, 0] ∧
    ((new.after overlappingStores).access (.swap 4 [1, 1, 1, 1])).1 = .ok [9, 4, 0, 0] ∧
    (new.after overlappingStores).access (.read 8 1) =
      (.error (.outOfRange 1 8 8), new.after overlappingStores) := by
  have hfits : 8 < storageBytes := by decide
  obtain ⟨new, hnew, hafter⟩ := (memory_remembers 8).2 hfits
  have hstart : new = .ofSize 8 := Except.ok.inj (hnew.symm.trans rfl)
  subst hstart
  obtain ⟨-, hsucceeds, hanswers, hrefuses⟩ := hafter overlappingStores
  obtain ⟨read, hread⟩ := (hsucceeds (.read 0 8)).mpr (by decide)
  obtain ⟨old, hold⟩ := (hsucceeds (.swap 4 [1, 1, 1, 1])).mpr (by decide)
  refine ⟨hfits, _, hnew, hread.trans (congrArg Except.ok ?_), hold.trans (congrArg Except.ok ?_),
    hrefuses (.read 8 1) (by decide)⟩
  · rw [hanswers _ _ hread]
    decide +kernel
  · rw [hanswers _ _ hold]
    decide +kernel

end MemPort
