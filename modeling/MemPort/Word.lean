/-!
# Words

Addresses, cycles, port numbers and request numbers are 64-bit quantities.  They
are kept as natural numbers, and the places where the machine would run out of
bits say so: `satAdd` adds and stops at the largest word, `addWord?` and
`mulWord?` have no result where it is not a word, and the truncated subtraction
of the natural numbers already stops at zero.

Memory is divided into blocks whose size is a power of two.  `blockBase` clears
the low bits of an address, which is the start of the block that holds it.

## Main definitions

* `maxWord`, `satAdd` — the largest word, and addition that saturates there.
* `addWord?`, `mulWord?` — sums and products that are words.
* `total` — the sum of some numbers.
* `isPowerOfTwo` — the sizes a block may have.
* `blockBase` — the first address of the block that holds an address.
* `lowByte`, `wordBytes`, `wordOfBytes` — words as little-endian bytes.

## References

`SPEC_FULL.md`, sections 3 and 4.1: addresses, cycles and lines.
-/

namespace MemPort

/-- The contents of consecutive addresses, lowest first. -/
abbrev Bytes := List UInt8

/-! ### Bounded sums -/

/-- The largest 64-bit word. -/
def maxWord : Nat := 1 <<< 64 - 1

/-- The sum of two words, or the largest word where the sum does not fit. -/
def satAdd (a b : Nat) : Nat := min (a + b) maxWord

theorem satAdd_le_maxWord (a b : Nat) : satAdd a b ≤ maxWord := Nat.min_le_right _ _

theorem satAdd_le_add (a b : Nat) : satAdd a b ≤ a + b := Nat.min_le_left _ _

theorem satAdd_eq_add {a b : Nat} (h : a + b ≤ maxWord) : satAdd a b = a + b :=
  Nat.min_eq_left h

/-- The sum of two words, if it is a word. -/
def addWord? (a b : Nat) : Option Nat := if a + b ≤ maxWord then some (a + b) else none

/-- The product of two words, if it is a word. -/
def mulWord? (a b : Nat) : Option Nat := if a * b ≤ maxWord then some (a * b) else none

theorem addWord?_eq_some_iff {a b n : Nat} :
    addWord? a b = some n ↔ a + b = n ∧ n ≤ maxWord := by
  unfold addWord?
  split
  · rename_i h
    simp only [Option.some.injEq]
    constructor
    · rintro rfl
      exact ⟨rfl, h⟩
    · exact fun h => h.1
  · rename_i h
    simp only [reduceCtorEq, false_iff, not_and]
    rintro rfl
    exact h

theorem mulWord?_eq_some_iff {a b n : Nat} :
    mulWord? a b = some n ↔ a * b = n ∧ n ≤ maxWord := by
  unfold mulWord?
  split
  · rename_i h
    simp only [Option.some.injEq]
    constructor
    · rintro rfl
      exact ⟨rfl, h⟩
    · exact fun h => h.1
  · rename_i h
    simp only [reduceCtorEq, false_iff, not_and]
    rintro rfl
    exact h

/-! ### Sums -/

/-- The sum of some numbers. -/
def total : List Nat → Nat
  | [] => 0
  | n :: rest => n + total rest

/-- Replacing a number changes the sum by the difference. -/
theorem total_set {l : List Nat} {i x y : Nat} (h : l[i]? = some y) :
    total (l.set i x) + y = total l + x := by
  induction l generalizing i with
  | nil => simp at h
  | cons a rest ih =>
    cases i with
    | zero =>
      simp only [List.getElem?_cons_zero, Option.some.injEq] at h
      subst h
      simp only [List.set_cons_zero, total]
      omega
    | succ i =>
      rw [List.getElem?_cons_succ] at h
      have := ih h
      simp only [List.set_cons_succ, total]
      omega

theorem total_perm {l l' : List Nat} (h : l.Perm l') : total l = total l' := by
  induction h with
  | nil => rfl
  | cons n _ ih => rw [total, total, ih]
  | swap m n rest =>
    rw [total, total, total, total]
    omega
  | trans _ _ ih ih' => exact ih.trans ih'

theorem total_append (l l' : List Nat) : total (l ++ l') = total l + total l' := by
  induction l with
  | nil => exact (Nat.zero_add _).symm
  | cons n rest ih => rw [List.cons_append, total, total, ih, Nat.add_assoc]

theorem length_flatMap_eq_total {α β : Type} (l : List α) (f : α → List β) :
    (l.flatMap f).length = total (l.map fun a => (f a).length) := by
  induction l with
  | nil => rfl
  | cons a rest ih => rw [List.flatMap_cons, List.length_append, ih, List.map_cons, total]

theorem total_flatMap {α : Type} (l : List α) (f : α → List Nat) :
    total (l.flatMap f) = total (l.map fun a => total (f a)) := by
  induction l with
  | nil => rfl
  | cons a rest ih => rw [List.flatMap_cons, total_append, ih, List.map_cons, total]

theorem total_map_add {α : Type} (l : List α) (f g : α → Nat) :
    total (l.map fun a => f a + g a) = total (l.map f) + total (l.map g) := by
  induction l with
  | nil => rfl
  | cons a rest ih =>
    rw [List.map_cons, List.map_cons, List.map_cons, total, total, total, ih]
    omega

theorem total_map_zero {α : Type} (l : List α) : total (l.map fun _ => 0) = 0 := by
  induction l with
  | nil => rfl
  | cons _ rest ih => rw [List.map_cons, total, ih]

/-- A sum over the first numbers in which one term counts. -/
theorem total_range_single {n i : Nat} (f : Nat → Nat) (h : i < n) :
    total ((List.range n).map fun k => if k = i then f k else 0) = f i := by
  induction n with
  | zero => exact absurd h (Nat.not_lt_zero i)
  | succ n ih =>
    rw [List.range_succ, List.map_append, total_append, List.map_singleton, total, total,
      Nat.add_zero]
    by_cases hi : n = i
    · -- no term before the last one counts
      have hnone : ((List.range n).map fun k => if k = i then f k else 0) =
          (List.range n).map fun _ => 0 :=
        List.map_congr_left fun k hk => if_neg fun heq => by
          rw [List.mem_range] at hk
          omega
      rw [hnone, total_map_zero, if_pos hi, Nat.zero_add, hi]
    · rw [ih (by omega), if_neg hi, Nat.add_zero]

/-- If every number grows by at most `k`, the sum grows by at most `k` for each. -/
theorem total_map_le {α : Type} {f f' : α → Nat} {k : Nat} {l : List α}
    (h : ∀ a ∈ l, f' a ≤ f a + k) : total (l.map f') ≤ total (l.map f) + l.length * k := by
  induction l with
  | nil => exact Nat.zero_le _
  | cons a rest ih =>
    have ha := h a List.mem_cons_self
    have hrest := ih fun b hb => h b (List.mem_cons_of_mem _ hb)
    rw [List.map_cons, List.map_cons, total, total, List.length_cons, Nat.succ_mul]
    omega

/-! ### Blocks -/

/-- Whether a number is a power of two: it is positive and has a single bit set. -/
def isPowerOfTwo (n : Nat) : Bool := n != 0 && (n &&& (n - 1)) == 0

/-- The first address of the block of `size` bytes that holds `addr`: the
address with the bits below `size` cleared. -/
def blockBase (addr size : Nat) : Nat := addr - (addr &&& (size - 1))

theorem blockBase_le (addr size : Nat) : blockBase addr size ≤ addr := Nat.sub_le _ _

theorem pos_of_isPowerOfTwo {size : Nat} (h : isPowerOfTwo size = true) : 0 < size := by
  unfold isPowerOfTwo at h
  rw [Bool.and_eq_true, bne_iff_ne] at h
  exact Nat.pos_of_ne_zero h.1

/-- The block of a power of two is found by rounding down to a multiple of its
size. -/
theorem blockBase_eq_sub_mod {size : Nat} (h : isPowerOfTwo size = true) (addr : Nat) :
    blockBase addr size = addr - addr % size := by
  unfold isPowerOfTwo at h
  rw [Bool.and_eq_true, bne_iff_ne, beq_iff_eq] at h
  obtain ⟨k, rfl⟩ := Nat.ne_zero_and_sub_one_eq_zero_iff_isPowerOfTwo.mp h
  unfold blockBase
  rw [Nat.and_two_pow_sub_one_eq_mod]

/-- An address lies less than a block after the start of its block. -/
theorem sub_blockBase_lt {size : Nat} (h : isPowerOfTwo size = true) (addr : Nat) :
    addr - blockBase addr size < size := by
  rw [blockBase_eq_sub_mod h, Nat.sub_sub_self (Nat.mod_le _ _)]
  exact Nat.mod_lt _ (pos_of_isPowerOfTwo h)

/-! ### Words as bytes -/

/-- The lowest eight bits of a word. -/
def lowByte (n : Nat) : UInt8 := n.toUInt8

/-- The four bytes of a 32-bit word, lowest first. -/
def wordBytes (n : Nat) : Bytes :=
  [lowByte n, lowByte (n >>> 8), lowByte (n >>> 16), lowByte (n >>> 24)]

/-- The word written by bytes that stand lowest first. -/
def wordOfBytes : Bytes → Nat
  | [] => 0
  | b :: rest => b.toNat + wordOfBytes rest <<< 8

/-- The addresses of `count` consecutive bytes. -/
def span (addr count : Nat) : List Nat := (List.range count).map (addr + ·)

@[simp] theorem length_span (addr count : Nat) : (span addr count).length = count := by
  simp [span]

end MemPort
