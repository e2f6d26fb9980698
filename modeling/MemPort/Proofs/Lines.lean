import MemPort.Memory
import MemPort.Proofs.Deliveries

/-!
# Lines

The size of a line is a power of two, so the lines of a memory are the multiples
of that size.  A transaction that keeps to its line touches no other, and a load
of a line can be cut up into the loads of the transactions in it.

## Main definitions

* `Transaction.Sound` — a transaction inside a memory and inside one line.
* `Origin.loaded` — the completion of a load with the bytes that a memory
  shows.

## Main results

* `ByteMap.load_store_of_lines` — a store to one line leaves the other lines
  as they are.
* `Coalesced.fanOut_of_read` — a load that is answered with the bytes of its
  line completes the transactions behind it with their own bytes.

## References

`SPEC_FULL.md`, section 3, line addresses, and section 4.5, the slices of a
response.
-/

namespace MemPort

/-! ### Multiples of the size of a line -/

theorem AllocatorConfig.isPowerOfTwo_of_check {config : AllocatorConfig}
    (h : config.check = .ok ()) : isPowerOfTwo config.lineSize = true :=
  (of_check h).2.1

section Lines

variable {n : Nat}

theorem blockBase_eq_mul (h : isPowerOfTwo n = true) (addr : Nat) :
    blockBase addr n = n * (addr / n) := by
  have hdiv := Nat.div_add_mod addr n
  rw [blockBase_eq_sub_mod h]
  omega

theorem lt_blockBase_add (h : isPowerOfTwo n = true) (addr : Nat) :
    addr < blockBase addr n + n := by
  have hlt := sub_blockBase_lt h addr
  omega

/-- Two lines that differ do not overlap. -/
theorem blockBase_add_le_or (h : isPowerOfTwo n = true) {a b : Nat}
    (hne : blockBase a n ≠ blockBase b n) :
    blockBase a n + n ≤ blockBase b n ∨ blockBase b n + n ≤ blockBase a n := by
  rw [blockBase_eq_mul h, blockBase_eq_mul h] at hne ⊢
  rcases Nat.lt_or_gt_of_ne fun heq => hne (congrArg (n * ·) heq) with hlt | hlt
  · left
    calc n * (a / n) + n = n * (a / n + 1) := by rw [Nat.mul_add, Nat.mul_one]
      _ ≤ n * (b / n) := Nat.mul_le_mul_left n hlt
  · right
    calc n * (b / n) + n = n * (b / n + 1) := by rw [Nat.mul_add, Nat.mul_one]
      _ ≤ n * (a / n) := Nat.mul_le_mul_left n hlt

/-- A memory of whole lines holds the whole line of every address in it. -/
theorem blockBase_add_le_of_dvd (h : isPowerOfTwo n = true) {addr size : Nat} (hdvd : n ∣ size)
    (hlt : addr < size) : blockBase addr n + n ≤ size := by
  obtain ⟨c, rfl⟩ := hdvd
  rw [blockBase_eq_mul h]
  have hdiv : addr / n < c := Nat.div_lt_of_lt_mul hlt
  calc n * (addr / n) + n = n * (addr / n + 1) := by rw [Nat.mul_add, Nat.mul_one]
    _ ≤ n * c := Nat.mul_le_mul_left n hdiv

end Lines

/-! ### Transactions that keep to their line -/

/-- A transaction that touches at least one byte, all of them inside a memory
and inside one line, and that brings along what it stores. -/
structure Transaction.Sound (t : Transaction) (lineSize memorySize : Nat) : Prop where
  /-- It touches a byte. -/
  pos : 0 < t.size
  /-- It touches none outside the memory. -/
  inside : t.addr + t.size ≤ memorySize
  /-- Its last byte is in the line of its first. -/
  line : blockBase (t.addr + t.size - 1) lineSize = blockBase t.addr lineSize
  /-- A store brings a byte for every one that it touches. -/
  sized : t.cmd.isExclusive = true → t.data.length = t.size

namespace Transaction.Sound

variable {t : Transaction} {lineSize memorySize : Nat}

theorem mono {memorySize' : Nat} (h : t.Sound lineSize memorySize)
    (hle : memorySize ≤ memorySize') :
    t.Sound lineSize memorySize' := { h with inside := Nat.le_trans h.inside hle }

theorem stop_le (h : t.Sound lineSize memorySize) (hsize : isPowerOfTwo lineSize = true) :
    t.addr + t.size ≤ blockBase t.addr lineSize + lineSize := by
  have hlast := lt_blockBase_add hsize (t.addr + t.size - 1)
  have hpos := h.pos
  rw [h.line] at hlast
  omega

theorem line_le (h : t.Sound lineSize memorySize) (hsize : isPowerOfTwo lineSize = true)
    (hdvd : lineSize ∣ memorySize) : blockBase t.addr lineSize + lineSize ≤ memorySize := by
  have hpos := h.pos
  have hinside := h.inside
  exact blockBase_add_le_of_dvd hsize hdvd (by omega)

end Transaction.Sound

namespace ByteMap

theorem load_store_of_disjoint (m : ByteMap) {addr a count : Nat} {data : Bytes}
    (h : a + count ≤ addr ∨ addr + data.length ≤ a) :
    (m.store addr data).load a count = m.load a count :=
  load_congr fun i hi => byteAt_store_of_disjoint m (by omega)

/-- **A store to one line leaves the other lines as they are.** -/
theorem load_store_of_lines (m : ByteMap) {lineSize memorySize a : Nat} {t : Transaction}
    (hsize : isPowerOfTwo lineSize = true) (ht : t.Sound lineSize memorySize)
    (hstore : t.cmd.isExclusive = true)
    (hne : blockBase a lineSize ≠ blockBase t.addr lineSize) :
    (m.store t.addr t.data).load (blockBase a lineSize) lineSize =
      m.load (blockBase a lineSize) lineSize := by
  apply load_store_of_disjoint
  have hstop := ht.stop_le hsize
  have hbase := blockBase_le t.addr lineSize
  rw [ht.sized hstore]
  rcases blockBase_add_le_or hsize hne with h | h
  · left
    omega
  · right
    omega

end ByteMap

/-! ### Loads cut out of a line -/

/-- The completion of a load with the bytes that a memory shows. -/
def Origin.loaded (o : Origin) (bytes : Nat → UInt8) : Nat × Response :=
  (o.port, o.txn.completion ((span o.txn.addr o.txn.size).map bytes) true)

theorem drop_take_span {addr line lineSize size : Nat} (hline : line ≤ addr)
    (hfit : addr - line + size ≤ lineSize) (bytes : Nat → UInt8) :
    (((span line lineSize).map bytes).drop (addr - line)).take size =
      (span addr size).map bytes := by
  apply List.ext_getElem?
  intro i
  unfold span
  by_cases hi : i < size
  · rw [List.getElem?_take_of_lt hi, List.getElem?_drop]
    have hlt : addr - line + i < lineSize := by omega
    have haddr : line + (addr - line + i) = addr + i := by omega
    simp [hi, hlt, haddr]
  · rw [List.getElem?_eq_none (by simp; omega), List.getElem?_eq_none (by simp; omega)]

namespace Coalesced

theorem toBackend_of_read {c : Coalesced} (h : c.cmd = .read) (id lineSize : Nat) :
    c.toBackend id lineSize = ⟨id, c.first.port, .read, c.line, lineSize, []⟩ := by
  unfold toBackend
  rw [if_pos ((Command.isCoalescable_iff _).mpr h), h]

theorem toBackend_of_ne_read {c : Coalesced} (h : c.cmd ≠ .read) (id lineSize : Nat) :
    c.toBackend id lineSize =
      ⟨id, c.first.port, c.cmd, c.first.txn.addr, c.first.txn.size, c.first.txn.data⟩ := by
  unfold toBackend
  rw [if_neg (mt (Command.isCoalescable_iff _).mp h)]

/-- What is cut out of a line for a transaction that fits. -/
theorem slice_of_span {line lineSize : Nat} {response : BackendResponse} {o : Origin}
    {bytes : Nat → UInt8} (hline : line ≤ o.txn.addr)
    (hdata : response.data = (span line lineSize).map bytes) :
    slice line response o = if o.txn.addr - line + o.txn.size ≤ lineSize then .ok (o.loaded bytes)
      else .error (.truncatedResponse response.id lineSize (o.txn.addr - line + o.txn.size)) := by
  unfold slice
  simp only [hdata, List.length_map, length_span]
  split
  · rename_i hfit
    rw [drop_take_span hline hfit]
    rfl
  · rfl

/-- The completions of a load that was answered with the bytes of its line. -/
theorem fanOut_of_read {c : Coalesced} {lineSize : Nat} {response : BackendResponse}
    {ds : List (Nat × Response)} {bytes : Nat → UInt8} (hread : c.cmd = .read)
    (huniform : c.Uniform lineSize) (hdata : response.data = (span c.line lineSize).map bytes)
    (h : c.fanOut response = .ok ds) : ds = c.origins.map (·.loaded bytes) := by
  unfold fanOut at h
  rw [if_pos ((Command.isCoalescable_iff _).mpr hread)] at h
  -- for the origins still to be cut, all of which belong to `c`
  have hslice : ∀ {os : List Origin} {ds : List (Nat × Response)},
      (∀ o ∈ os, o ∈ c.origins) →
        List.Forall₂ (fun o d => slice c.line response o = .ok d) os ds →
        ds = os.map (·.loaded bytes) := by
    intro os ds hsub hall
    induction hall with
    | nil => rfl
    | @cons o d os ds ho _ ih =>
      have hline := (huniform o (hsub o List.mem_cons_self)).1
      rw [slice_of_span (hline ▸ blockBase_le _ _) hdata] at ho
      split at ho
      · cases ho
        rw [ih fun o' ho' => hsub o' (List.mem_cons_of_mem _ ho')]
        rfl
      · cases ho
  exact hslice (fun _ ho => ho) (forall₂_mapM h)

/-- Transactions that keep to the line can all be cut out of it. -/
theorem mapM_slice {line lineSize memorySize : Nat} {response : BackendResponse}
    {bytes : Nat → UInt8} (hsize : isPowerOfTwo lineSize = true)
    (hdata : response.data = (span line lineSize).map bytes) {os : List Origin}
    (hline : ∀ o ∈ os, blockBase o.txn.addr lineSize = line)
    (hsound : ∀ o ∈ os, o.txn.Sound lineSize memorySize) :
    os.mapM (slice line response) = .ok (os.map (·.loaded bytes)) := by
  induction os with
  | nil => rfl
  | cons o rest ih =>
    have hbase := hline o List.mem_cons_self
    have hstop := (hsound o List.mem_cons_self).stop_le hsize
    have hle := blockBase_le o.txn.addr lineSize
    have hfit : o.txn.addr - line + o.txn.size ≤ lineSize := by omega
    rw [List.mapM_cons, slice_of_span (hbase ▸ hle) hdata, if_pos hfit,
      ih (fun o ho => hline o (List.mem_cons_of_mem _ ho))
        fun o ho => hsound o (List.mem_cons_of_mem _ ho)]
    rfl

/-- A load that is answered with the bytes of its line completes all
transactions behind it. -/
theorem fanOut_of_sound {c : Coalesced} {lineSize memorySize : Nat} {response : BackendResponse}
    {bytes : Nat → UInt8} (hsize : isPowerOfTwo lineSize = true) (hread : c.cmd = .read)
    (huniform : c.Uniform lineSize) (hdata : response.data = (span c.line lineSize).map bytes)
    (hsound : ∀ o ∈ c.origins, o.txn.Sound lineSize memorySize) :
    c.fanOut response = .ok (c.origins.map (·.loaded bytes)) := by
  unfold fanOut
  rw [if_pos ((Command.isCoalescable_iff _).mpr hread)]
  exact mapM_slice hsize hdata (fun o ho => (huniform o ho).1) hsound

/-- An answer completes a load that was joined by another as it completes the
two. -/
theorem fanOut_absorb? {c other d : Coalesced} {response : BackendResponse}
    {ds ds' : List (Nat × Response)} (h : c.absorb? other = some d)
    (hc : c.fanOut response = .ok ds) (hother : other.fanOut response = .ok ds') :
    d.fanOut response = .ok (ds ++ ds') := by
  obtain ⟨horigins, hcmd, hline⟩ := origins_absorb? h
  obtain ⟨hread, hread', hline'⟩ := loads_of_absorb? h
  have hload : Command.read.isCoalescable = true := rfl
  unfold fanOut at hc hother ⊢
  rw [hread, if_pos hload] at hc
  rw [hread', if_pos hload, hline'] at hother
  rw [hcmd, hread, if_pos hload, hline, horigins, List.mapM_append, hc, hother]
  rfl

end Coalesced

end MemPort
