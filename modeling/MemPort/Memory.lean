import MemPort.Failure
import Std.Data.TreeMap

/-!
# Memory

Bytes by address, zero wherever nothing has been stored.  A `ByteMap` has no
bounds; a `Memory` is the part of one below a size, and refuses an access that
leaves it.

Whether an access leaves a memory is found out with words.  The end of an access
at a high address need not be a word, but then it lies behind every memory,
because the size of a memory fits the storage of a machine.

## Main definitions

* `ByteMap` — bytes by address; `ByteMap.byteAt`, `ByteMap.load`,
  `ByteMap.store`.
* `Memory` — a byte map with a size; `Memory.read`, `Memory.write`,
  `Memory.swap`.
* `MemoryFault` — why an access is refused.

## Main results

* `ByteMap.byteAt_store` — a store replaces its own bytes and no others.
* `ByteMap.load_store` — what was stored is read back.
* `Memory.check_eq` — the check in words is exact.

## References

`SPEC_FULL.md`, section 10.1: a sized store of bytes with bounds that are
checked.
-/

namespace MemPort

/-! ### Bytes by address -/

/-- Bytes by address. -/
structure ByteMap where
  /-- The bytes that have been stored. -/
  cells : Std.TreeMap Nat UInt8

namespace ByteMap

/-- Zero everywhere. -/
def zero : ByteMap := ⟨∅⟩

instance : Inhabited ByteMap := ⟨zero⟩

/-- The byte at an address. -/
def byteAt (m : ByteMap) (addr : Nat) : UInt8 := m.cells.getD addr 0

/-- The bytes at consecutive addresses. -/
def load (m : ByteMap) (addr count : Nat) : Bytes := (span addr count).map m.byteAt

/-- Put bytes at consecutive addresses. -/
def store (m : ByteMap) (addr : Nat) : Bytes → ByteMap
  | [] => m
  | b :: rest => store ⟨m.cells.insert addr b⟩ (addr + 1) rest

@[simp] theorem byteAt_zero (addr : Nat) : zero.byteAt addr = 0 :=
  Std.TreeMap.getD_emptyc

@[simp] theorem length_load (m : ByteMap) (addr count : Nat) :
    (m.load addr count).length = count := by
  simp [load]

theorem byteAt_insert (m : ByteMap) (addr : Nat) (b : UInt8) (a : Nat) :
    byteAt ⟨m.cells.insert addr b⟩ a = if addr = a then b else m.byteAt a := by
  unfold byteAt
  rw [Std.TreeMap.getD_insert]
  simp

/-- **A store replaces its own bytes and no others.** -/
theorem byteAt_store (m : ByteMap) (addr : Nat) (data : Bytes) (a : Nat) :
    (m.store addr data).byteAt a =
      if addr ≤ a then data.getD (a - addr) (m.byteAt a) else m.byteAt a := by
  induction data generalizing m addr with
  | nil => simp [store]
  | cons b rest ih =>
    unfold store
    rw [ih, byteAt_insert]
    rcases Nat.lt_trichotomy addr a with h | h | h
    · -- behind the first byte
      have hoff : a - addr = (a - (addr + 1)) + 1 := by omega
      have hne : addr ≠ a := by omega
      rw [if_pos (by omega : addr + 1 ≤ a), if_pos (by omega : addr ≤ a), hoff, if_neg hne]
      simp
    · -- the first byte
      subst h
      rw [if_neg (by omega : ¬ addr + 1 ≤ addr)]
      simp
    · -- before the bytes
      have hne : addr ≠ a := by omega
      rw [if_neg (by omega : ¬ addr + 1 ≤ a), if_neg (by omega : ¬ addr ≤ a), if_neg hne]

theorem byteAt_store_of_disjoint (m : ByteMap) {addr a : Nat} {data : Bytes}
    (h : a < addr ∨ addr + data.length ≤ a) : (m.store addr data).byteAt a = m.byteAt a := by
  rw [byteAt_store]
  split
  · have hbeyond : data.length ≤ a - addr := by omega
    rw [List.getD_eq_getElem?_getD, List.getElem?_eq_none hbeyond]
    rfl
  · rfl

/-- A load shows the bytes at its addresses, and no others. -/
theorem load_congr {m m' : ByteMap} {addr count : Nat}
    (h : ∀ i < count, m.byteAt (addr + i) = m'.byteAt (addr + i)) :
    m.load addr count = m'.load addr count := by
  unfold load span
  rw [List.map_map, List.map_map]
  exact List.map_congr_left fun i hi => h i (List.mem_range.mp hi)

/-- **What was stored is read back.** -/
theorem load_store (m : ByteMap) (addr : Nat) (data : Bytes) :
    (m.store addr data).load addr data.length = data := by
  apply List.ext_getElem?
  intro i
  unfold load span
  by_cases h : i < data.length
  · simp [h, byteAt_store]
  · simp [h]

end ByteMap

/-! ### Bounded memory -/

/-- The number of bytes from which on a memory no longer fits a machine's
storage. -/
def storageBytes : Nat := 1 <<< 63

theorem storageBytes_le_maxWord : storageBytes ≤ maxWord := by decide

/-- Why a memory refuses an access. -/
inductive MemoryFault where
  /-- The access has no bytes: the caller's mistake. -/
  | zeroLength (addr : Nat)
  /-- The access leaves the memory. -/
  | outOfRange (count addr size : Nat)
  deriving DecidableEq, Repr

/-- The wording of a refused access. -/
def MemoryFault.message : MemoryFault → String
  | zeroLength addr => s!"zero-length memory access @ {Hex.number addr}"
  | outOfRange count addr size =>
      s!"memory access of size {count} @ {Hex.number addr} exceeds {size} byte store"

/-- A memory of a given size. -/
structure Memory where
  /-- The number of bytes, which are numbered from zero. -/
  size : Nat
  /-- The bytes. -/
  contents : ByteMap
  /-- They fit the storage. -/
  size_lt : size < storageBytes

namespace Memory

/-- A memory of zeros.  Whether a size that is written out fits is found by
computing. -/
def ofSize (size : Nat)
    (fits : decide (size < storageBytes) = true := by exact Eq.refl true) : Memory :=
  ⟨size, .zero, of_decide_eq_true fits⟩

/-- A memory of zeros, unless it does not fit the storage. -/
def new (size : Nat) : Except Assertion Memory :=
  if h : storageBytes ≤ size then .error .storageLimit
  else .ok (ofSize size (decide_eq_true (Nat.not_le.mp h)))

/-- Refuse an access that has no bytes or leaves the memory, which it does if
its end is not a word. -/
def check (m : Memory) (addr count : Nat) : Except MemoryFault Unit :=
  if count = 0 then .error (.zeroLength addr)
  else if (addWord? addr count).any (· ≤ m.size) then .ok ()
  else .error (.outOfRange count addr m.size)

/-- The bytes at consecutive addresses. -/
def read (m : Memory) (addr count : Nat) : Except MemoryFault Bytes :=
  (m.check addr count).map fun _ => m.contents.load addr count

/-- Put bytes at consecutive addresses. -/
def write (m : Memory) (addr : Nat) (data : Bytes) : Except MemoryFault Memory :=
  (m.check addr data.length).map fun _ => { m with contents := m.contents.store addr data }

/-- Put bytes at consecutive addresses, and return what was there before. -/
def swap (m : Memory) (addr : Nat) (data : Bytes) : Except MemoryFault (Bytes × Memory) := do
  let old ← m.read addr data.length
  let m ← m.write addr data
  return (old, m)

theorem size_le_maxWord (m : Memory) : m.size ≤ maxWord :=
  Nat.le_trans (Nat.le_of_lt m.size_lt) storageBytes_le_maxWord

/-- An end that is not a word lies behind the memory, so nothing is lost by
looking at words only. -/
theorem any_addWord?_iff (m : Memory) (addr count : Nat) :
    (addWord? addr count).any (· ≤ m.size) = true ↔ addr + count ≤ m.size := by
  have hsize := m.size_le_maxWord
  unfold addWord?
  split
  · simp
  · simp only [Option.any_none, Bool.false_eq_true, false_iff]
    omega

/-- **The check in words is exact.** -/
theorem check_eq (m : Memory) (addr count : Nat) : m.check addr count =
    if count = 0 then .error (.zeroLength addr)
    else if m.size < addr + count then .error (.outOfRange count addr m.size)
    else .ok () := by
  unfold check
  simp only [any_addWord?_iff, ← Nat.not_le, ite_not]

theorem check_eq_ok_iff (m : Memory) (addr count : Nat) :
    m.check addr count = .ok () ↔ 0 < count ∧ addr + count ≤ m.size := by
  rw [check_eq]
  split
  · simp_all
  · split
    · simp only [reduceCtorEq, false_iff]
      omega
    · simp only [true_iff]
      omega

/-- Accesses inside the memory succeed. -/
theorem read_eq_ok {m : Memory} {addr count : Nat} (hpos : 0 < count)
    (hin : addr + count ≤ m.size) : m.read addr count = .ok (m.contents.load addr count) := by
  unfold read
  rw [(check_eq_ok_iff m addr count).mpr ⟨hpos, hin⟩]
  rfl

end Memory

end MemPort
