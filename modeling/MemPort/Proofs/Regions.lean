import MemPort.Proofs.Lines
import MemPort.Traffic.Generator

/-!
# Where accesses go

The memory of a simulation has a region that all ports read, a region for every
port, and a line with the counter.  The regions are made of whole lines and lie
back to back, so an access of a port keeps to one line and is seen by no other
port, unless it is for the counter.

## Main definitions

* `RegionLayout.Aligned` — regions of whole lines.
* `Scenario` — regions of whole lines below the largest word, and patterns of
  accesses that fit them.
* `Scenario.Sited` — an access that a port may make.
* `Scenario.SameFor` — memories that a port cannot tell apart.

## Main results

* `Scenario.covers_target` — every access of a pattern lies in its region.
* `Scenario.SameFor.store`, `Scenario.sameFor_store` — what a store of a port
  looks like to that port, and to the others.

## References

`SPEC_FULL.md`, section 10.7: the shared region, the private regions and the
line of the counter.
-/

namespace MemPort

/-! ### Powers of two -/

theorem dvd_of_isPowerOfTwo {m n : Nat} (hm : isPowerOfTwo m = true) (hn : isPowerOfTwo n = true)
    (hle : m ≤ n) : m ∣ n := by
  unfold isPowerOfTwo at hm hn
  rw [Bool.and_eq_true, bne_iff_ne, beq_iff_eq] at hm hn
  obtain ⟨i, rfl⟩ := Nat.ne_zero_and_sub_one_eq_zero_iff_isPowerOfTwo.mp hm
  obtain ⟨j, rfl⟩ := Nat.ne_zero_and_sub_one_eq_zero_iff_isPowerOfTwo.mp hn
  exact Nat.pow_dvd_pow 2 ((Nat.pow_le_pow_iff_right (Nat.lt_succ_self 1)).mp hle)

theorem blockBase_mono {n : Nat} (h : isPowerOfTwo n = true) {a b : Nat} (hle : a ≤ b) :
    blockBase a n ≤ blockBase b n := by
  rw [blockBase_eq_mul h, blockBase_eq_mul h]
  exact Nat.mul_le_mul_left n (Nat.div_le_div_right hle)

/-- What starts at a multiple of its size, and has a size that divides that of a
line, keeps to its line. -/
theorem blockBase_of_dvd {lineSize size addr : Nat} (hline : isPowerOfTwo lineSize = true)
    (hpos : 0 < size) (hsize : size ∣ lineSize) (haddr : size ∣ addr) :
    blockBase (addr + size - 1) lineSize = blockBase addr lineSize := by
  obtain ⟨c, hc⟩ := hsize
  obtain ⟨k, rfl⟩ := haddr
  have hlast : (size * k + size - 1) / size = k := by
    rw [Nat.add_sub_assoc hpos, Nat.mul_add_div hpos,
      Nat.div_eq_of_lt (Nat.sub_lt hpos Nat.zero_lt_one), Nat.add_zero]
  rw [blockBase_eq_mul hline, blockBase_eq_mul hline, hc, ← Nat.div_div_eq_div_mul, hlast,
    ← Nat.div_div_eq_div_mul, Nat.mul_div_cancel_left k hpos]

/-! ### Regions -/

namespace RegionLayout

/-- The start of a region, as a port sees it. -/
def startOf (l : RegionLayout) (port : Nat) : Region → Nat
  | .sharedRegion => l.base
  | .privateRegion => l.privateBase port

/-- The bytes of a region. -/
def bytesOf (l : RegionLayout) : Region → Nat
  | .sharedRegion => l.sharedBytes
  | .privateRegion => l.privateBytes

/-- A region holds some consecutive bytes. -/
def Covers (l : RegionLayout) (port : Nat) (region : Region) (addr size : Nat) : Prop :=
  l.startOf port region ≤ addr ∧ addr + size ≤ l.startOf port region + l.bytesOf region

/-- Whether a port may look at an address. -/
def Shows (l : RegionLayout) (port addr : Nat) : Prop := ∃ region, l.Covers port region addr 1

theorem privateBase_le (l : RegionLayout) {p q : Nat} (h : p < q) :
    l.privateBase p + l.privateBytes ≤ l.privateBase q := by
  rw [← privateBase_succ]
  exact Nat.add_le_add_left (Nat.mul_le_mul_right _ h) _

theorem Covers.shows {l : RegionLayout} {port addr size i : Nat} {region : Region}
    (h : l.Covers port region addr size) (hi : i < size) : l.Shows port (addr + i) := by
  obtain ⟨hstart, hstop⟩ := h
  exact ⟨region, by omega, by omega⟩

theorem owns_of_covers {l : RegionLayout} {port addr size : Nat}
    (h : l.Covers port .privateRegion addr size) (hpos : 0 < size) : l.owns port addr = true := by
  obtain ⟨hstart, hstop⟩ := h
  simp only [startOf, bytesOf] at hstart hstop
  rw [owns, Bool.and_eq_true, decide_eq_true_eq, decide_eq_true_eq]
  omega

/-- Regions end before the line of the counter. -/
theorem covers_le {l : RegionLayout} {numPorts port addr size : Nat} {region : Region}
    (h : l.Covers port region addr size) (hport : port < numPorts) :
    addr + size ≤ l.counterAddr numPorts := by
  obtain ⟨-, hstop⟩ := h
  have hprivate := l.privateBase_le hport
  cases region with
  | sharedRegion =>
    simp only [startOf, bytesOf] at hstop
    unfold counterAddr privateBase
    omega
  | privateRegion =>
    simp only [startOf, bytesOf] at hstop
    exact Nat.le_trans hstop hprivate

/-- The shared region and a private region do not overlap. -/
theorem disjoint_of_shared {l : RegionLayout} {p q a addr size : Nat}
    (hp : l.Covers p .privateRegion addr size) (hq : l.Covers q .sharedRegion a 1) :
    a + 1 ≤ addr ∨ addr + size ≤ a := by
  obtain ⟨hstart, -⟩ := hp
  obtain ⟨-, hstop⟩ := hq
  simp only [startOf, bytesOf] at hstart hstop
  unfold privateBase at hstart
  omega

/-- A port sees nothing of the private region of another. -/
theorem disjoint_of_covers {l : RegionLayout} {p q a addr size : Nat} (hne : p ≠ q)
    (hp : l.Covers p .privateRegion addr size) (hq : l.Shows q a) :
    a + 1 ≤ addr ∨ addr + size ≤ a := by
  obtain ⟨region, hq⟩ := hq
  cases region with
  | sharedRegion => exact disjoint_of_shared hp hq
  | privateRegion =>
    obtain ⟨hstart, hstop⟩ := hp
    obtain ⟨hstart', hstop'⟩ := hq
    simp only [startOf, bytesOf] at hstart hstop hstart' hstop'
    rcases Nat.lt_or_gt_of_ne hne with hlt | hlt
    · have := l.privateBase_le hlt
      omega
    · have := l.privateBase_le hlt
      omega

/-- Regions that start and end where lines do. -/
structure Aligned (l : RegionLayout) (lineSize : Nat) : Prop where
  /-- The shared region starts with a line. -/
  base : lineSize ∣ l.base
  /-- It is made of whole lines. -/
  sharedBytes : lineSize ∣ l.sharedBytes
  /-- Private regions are made of whole lines. -/
  privateBytes : lineSize ∣ l.privateBytes

namespace Aligned

variable {l : RegionLayout} {lineSize : Nat}

theorem dvd_privateBase (h : l.Aligned lineSize) (port : Nat) : lineSize ∣ l.privateBase port :=
  Nat.dvd_add (Nat.dvd_add h.base h.sharedBytes) (Nat.dvd_mul_left_of_dvd h.privateBytes port)

theorem dvd_startOf (h : l.Aligned lineSize) (port : Nat) (region : Region) :
    lineSize ∣ l.startOf port region := by
  cases region with
  | sharedRegion => exact h.base
  | privateRegion => exact h.dvd_privateBase port

theorem dvd_bytesOf (h : l.Aligned lineSize) (region : Region) : lineSize ∣ l.bytesOf region := by
  cases region with
  | sharedRegion => exact h.sharedBytes
  | privateRegion => exact h.privateBytes

end Aligned

end RegionLayout

/-! ### Patterns -/

/-- Two multiples of a number are at least that number apart. -/
theorem add_le_of_dvd_of_lt {d a b : Nat} (ha : d ∣ a) (hb : d ∣ b) (hlt : a < b) :
    a + d ≤ b := by
  obtain ⟨i, rfl⟩ := ha
  obtain ⟨n, rfl⟩ := hb
  have hlt' : i < n := Nat.lt_of_mul_lt_mul_left hlt
  calc d * i + d = d * (i + 1) := by rw [Nat.mul_add, Nat.mul_one]
    _ ≤ d * n := Nat.mul_le_mul_left _ hlt'

/-- A pattern whose accesses keep to their region, and each to one line. -/
structure Pattern.Fits (p : Pattern) (l : RegionLayout) (lineSize : Nat) : Prop where
  /-- The size of an access is a power of two. -/
  size : isPowerOfTwo p.reqBytes = true
  /-- An access is not larger than a line. -/
  line : p.reqBytes ≤ lineSize
  /-- There is a place for an access. -/
  window_pos : 0 < p.window
  /-- All places are in the region. -/
  window_le : p.window ≤ l.bytesOf p.region
  /-- Stores go to the private region. -/
  own : p.op.isStore = true → p.region = .privateRegion

/-- **Every access of a pattern that fits lies in its region**, at a multiple of
its size. -/
theorem Pattern.Fits.covers_place {p : Pattern} {l : RegionLayout} {lineSize : Nat}
    (h : p.Fits l lineSize) (hline : isPowerOfTwo lineSize = true) (haligned : l.Aligned lineSize)
    (port raw : Nat) :
    l.Covers port p.region (l.startOf port p.region + p.place raw) p.reqBytes ∧
      p.reqBytes ∣ l.startOf port p.region + p.place raw := by
  have hdvd := dvd_of_isPowerOfTwo h.size hline h.line
  have hplace := Pattern.dvd_place h.size raw
  -- places and the end of the region are multiples of the size of an access
  have hstop : p.place raw + p.reqBytes ≤ l.bytesOf p.region :=
    add_le_of_dvd_of_lt hplace (Nat.dvd_trans hdvd (haligned.dvd_bytesOf p.region))
      (Nat.lt_of_lt_of_le (Pattern.place_lt h.window_pos raw) h.window_le)
  refine ⟨⟨Nat.le_add_right _ _, ?_⟩,
    Nat.dvd_add (Nat.dvd_trans hdvd (haligned.dvd_startOf port p.region)) hplace⟩
  rw [Nat.add_assoc]
  exact Nat.add_le_add_left hstop _

/-- The regions of a simulation and the patterns that are run on them. -/
structure Scenario where
  /-- Where the regions lie. -/
  layout : RegionLayout
  /-- The number of ports. -/
  numPorts : Nat
  /-- The bytes of a line. -/
  lineSize : Nat
  /-- The patterns. -/
  set : PatternSet
  /-- The accesses that a port may have in flight. -/
  maxInflight : Nat
  /-- There are lines. -/
  isPowerOfTwo_lineSize : isPowerOfTwo lineSize = true
  /-- A line holds the counter. -/
  counter_le : Generator.counterBytes ≤ lineSize
  /-- Regions start and end with a line. -/
  dvd_base : lineSize ∣ layout.base
  /-- The shared region is made of whole lines. -/
  dvd_shared : lineSize ∣ layout.sharedBytes
  /-- Private regions are made of whole lines. -/
  dvd_private : lineSize ∣ layout.privateBytes
  /-- All addresses are words. -/
  stop_le : layout.stop numPorts lineSize ≤ maxWord
  /-- Their accesses fit the regions. -/
  fits : ∀ p ∈ set.patterns, p.Fits layout lineSize
  /-- Their places are words. -/
  placed : ∀ p ∈ set.patterns, ∀ req < set.reqsPerPattern, ∀ port < numPorts,
    (p.rawOffset? set.ports set.reqsPerPattern req port).isSome = true
  /-- A port may have an access in flight. -/
  maxInflight_pos : 0 < maxInflight

namespace Scenario

variable {w : Scenario}

/-- The address of the counter. -/
def counterAddr (w : Scenario) : Nat := w.layout.counterAddr w.numPorts

/-- The address behind the line of the counter. -/
def stop (w : Scenario) : Nat := w.layout.stop w.numPorts w.lineSize

theorem aligned (w : Scenario) : w.layout.Aligned w.lineSize :=
  ⟨w.dvd_base, w.dvd_shared, w.dvd_private⟩

theorem dvd_privateBase (w : Scenario) (port : Nat) : w.lineSize ∣ w.layout.privateBase port :=
  w.aligned.dvd_privateBase port

theorem dvd_stop (w : Scenario) : w.lineSize ∣ w.stop :=
  Nat.dvd_add (w.dvd_privateBase w.numPorts) (Nat.dvd_refl _)

/-- **Every access of a pattern lies in its region**, at a multiple of its size. -/
theorem covers_target {p : Pattern} (hp : p ∈ w.set.patterns) (port raw : Nat) :
    w.layout.Covers port p.region (w.layout.startOf port p.region + p.place raw) p.reqBytes ∧
      p.reqBytes ∣ w.layout.startOf port p.region + p.place raw :=
  (w.fits p hp).covers_place w.isPowerOfTwo_lineSize w.aligned port raw

/-! ### Accesses -/

/-- An access that a port may make. -/
structure Sited (w : Scenario) (port : Nat) (t : Transaction) : Prop where
  /-- It keeps to its line, and to the memory. -/
  sound : t.Sound w.lineSize w.stop
  /-- A load goes to a region. -/
  load : t.cmd = .read → ∃ region, w.layout.Covers port region t.addr t.size
  /-- A store goes to the private region. -/
  store : t.cmd = .write ∨ t.cmd = .swap → w.layout.Covers port .privateRegion t.addr t.size
  /-- A linked access goes to the counter. -/
  linked : t.cmd.isLinked = true → t.addr = w.counterAddr ∧ t.size = Generator.counterBytes

/-- An access of a pattern, or a store of as many bytes, is sound. -/
theorem sound_of_covers {t : Transaction} {port : Nat} {region : Region} (hport : port < w.numPorts)
    (hsize : isPowerOfTwo t.size = true) (hline : t.size ≤ w.lineSize) (hdvd : t.size ∣ t.addr)
    (hcovers : w.layout.Covers port region t.addr t.size)
    (hsized : t.cmd.isExclusive = true → t.data.length = t.size) :
    t.Sound w.lineSize w.stop := by
  have hpos := pos_of_isPowerOfTwo hsize
  refine ⟨hpos, ?_, ?_, hsized⟩
  · have hle := RegionLayout.covers_le hcovers hport
    unfold stop RegionLayout.stop
    omega
  · exact blockBase_of_dvd w.isPowerOfTwo_lineSize hpos
      (dvd_of_isPowerOfTwo hsize w.isPowerOfTwo_lineSize hline) hdvd

/-- An access of a pattern, or a store of as many bytes, is sited. -/
theorem sited_of_covers {p : Pattern} {t : Transaction} {port : Nat} (hport : port < w.numPorts)
    (hfits : p.Fits w.layout w.lineSize) (hcovers : w.layout.Covers port p.region t.addr p.reqBytes)
    (hdvd : p.reqBytes ∣ t.addr) (hsize : t.size = p.reqBytes)
    (hsized : t.cmd.isExclusive = true → t.data.length = t.size) (hcmd : t.cmd.isLinked = false)
    (hstore : t.cmd = .write ∨ t.cmd = .swap → p.op.isStore = true) : w.Sited port t := by
  rw [← hsize] at hcovers
  refine ⟨sound_of_covers hport (hsize ▸ hfits.size) (hsize ▸ hfits.line) (hsize ▸ hdvd)
    hcovers hsized, fun _ => ⟨_, hcovers⟩, fun ht => ?_, fun ht => ?_⟩
  · rw [hfits.own (hstore ht)] at hcovers
    exact hcovers
  · rw [hcmd] at ht
    cases ht

/-- An access to the counter is sited. -/
theorem sited_counter {t : Transaction} (port : Nat) (hcmd : t.cmd.isLinked = true)
    (haddr : t.addr = w.counterAddr) (hsize : t.size = Generator.counterBytes)
    (hsized : t.cmd.isExclusive = true → t.data.length = t.size) : w.Sited port t := by
  have hle := w.counter_le
  have hpos : 0 < Generator.counterBytes := by decide
  have hread : t.cmd ≠ .read := fun h => by rw [h] at hcmd; cases hcmd
  have hstore : ¬ (t.cmd = .write ∨ t.cmd = .swap) := by
    rintro (h | h) <;> rw [h] at hcmd <;> cases hcmd
  refine ⟨⟨hsize ▸ hpos, ?_, ?_, hsized⟩, fun h => absurd h hread, fun h => absurd h hstore,
    fun _ => ⟨haddr, hsize⟩⟩
  · rw [haddr, hsize]
    exact Nat.add_le_add_left hle _
  · -- the counter stands at the start of its line
    obtain ⟨k, hk⟩ := w.dvd_privateBase w.numPorts
    have hk : t.addr = w.lineSize * k := haddr.trans hk
    have hlines : 0 < w.lineSize := pos_of_isPowerOfTwo w.isPowerOfTwo_lineSize
    rw [blockBase_eq_mul w.isPowerOfTwo_lineSize,
      blockBase_eq_mul w.isPowerOfTwo_lineSize, hsize, hk,
      Nat.add_sub_assoc hpos, Nat.mul_add_div hlines, Nat.mul_div_cancel_left k hlines,
      Nat.div_eq_of_lt (Nat.lt_of_lt_of_le (Nat.sub_lt hpos Nat.zero_lt_one) hle), Nat.add_zero]

/-- An exclusive access of a port does not touch the private regions of others. -/
theorem Sited.not_owns {t : Transaction} {p q : Nat} (h : w.Sited p t)
    (hcmd : t.cmd.isExclusive = true) (hq : q < w.numPorts) (hne : q ≠ p) :
    w.layout.owns q t.addr = false := by
  rw [Bool.eq_false_iff]
  intro howns
  cases ht : t.cmd with
  | read => rw [ht] at hcmd; cases hcmd
  | loadLocked => rw [ht] at hcmd; cases hcmd
  | write =>
    exact hne (RegionLayout.eq_of_owns howns
      (RegionLayout.owns_of_covers (h.store (Or.inl ht)) h.sound.pos))
  | swap =>
    exact hne (RegionLayout.eq_of_owns howns
      (RegionLayout.owns_of_covers (h.store (Or.inr ht)) h.sound.pos))
  | storeCond =>
    have haddr := (h.linked (ht ▸ rfl)).1
    have hprivate := w.layout.privateBase_le hq
    rw [RegionLayout.owns, Bool.and_eq_true, decide_eq_true_eq, decide_eq_true_eq, haddr] at howns
    unfold counterAddr RegionLayout.counterAddr at howns
    omega

/-! ### Memories that a port cannot tell apart -/

/-- Two memories are the same for a port. -/
def SameFor (w : Scenario) (port : Nat) (m m' : ByteMap) : Prop :=
  ∀ addr, w.layout.Shows port addr → m'.byteAt addr = m.byteAt addr

namespace SameFor

variable {port : Nat} {m m' : ByteMap}

theorem refl (w : Scenario) (port : Nat) (m : ByteMap) : w.SameFor port m m := fun _ _ => rfl

/-- They remain so after the same store. -/
theorem store (h : w.SameFor port m m') (addr : Nat) (data : Bytes) :
    w.SameFor port (m.store addr data) (m'.store addr data) := by
  intro a hs
  rw [ByteMap.byteAt_store, ByteMap.byteAt_store, h a hs]

theorem load_eq (h : w.SameFor port m m') {addr size : Nat} {region : Region}
    (hcovers : w.layout.Covers port region addr size) : m'.load addr size = m.load addr size := by
  exact ByteMap.load_congr fun i hi => h (addr + i) (hcovers.shows hi)

end SameFor

/-- A store that keeps away from what a port sees is not noticed. -/
theorem sameFor_store {port : Nat} (m : ByteMap) {addr : Nat} {data : Bytes}
    (h : ∀ a, w.layout.Shows port a → a + 1 ≤ addr ∨ addr + data.length ≤ a) :
    w.SameFor port m (m.store addr data) := by
  intro a hs
  exact m.byteAt_store_of_disjoint (h a hs)

/-- Nothing of the counter is in a region. -/
theorem sameFor_store_counter {port : Nat} (hport : port < w.numPorts) (m : ByteMap)
    (data : Bytes) :
    w.SameFor port m (m.store w.counterAddr data) := by
  refine sameFor_store m fun a hs => Or.inl ?_
  obtain ⟨region, hcovers⟩ := hs
  exact RegionLayout.covers_le hcovers hport

/-- No other port notices a store to a private region. -/
theorem sameFor_store_private {p q addr : Nat} {data : Bytes} (hne : p ≠ q)
    (hcovers : w.layout.Covers p .privateRegion addr data.length) (m : ByteMap) :
    w.SameFor q m (m.store addr data) :=
  sameFor_store m fun _ hs => RegionLayout.disjoint_of_covers hne hcovers hs

end Scenario

end MemPort
