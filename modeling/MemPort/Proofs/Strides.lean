import MemPort.Proofs.Setup

/-!
# Places of strided accesses

In a pattern with strides an access has a slot, which is numbered by how far its
port has come and then by its port, and its place is the slot times the distance
of the ports times the bytes of an access, brought into the window and rounded
down to a multiple of these bytes.  That is a product of up to five configured
numbers, and it is computed in words before it is brought into the window.  So
the place is computed exactly where the product is a word, and the slot too,
which may be the larger one if the ports have no distance; and where it is not,
there is no place at all.

Nothing keeps the configured numbers so small that the product is a word.  A
step and a distance of 32 bits each are enough for the second access of a single
port to get no place.

## Main definitions

* `PatternSpec.strides?`, `PatternSpec.windowIn` — the strides and the window
  that a specification asks for.

## Main results

* `Pattern.rawOffset?_strided` — when the product is computed.
* `strided_offset_exact` — the places of the accesses of a pattern with
  strides.
* `wide_strides_overflow` — a pattern that is accepted although one of its
  accesses has no place.

## References

`SPEC_FULL.md`, sections 10.1 and 10.7: strided patterns.
-/

namespace MemPort

namespace PatternSpec

/-- The strides that a specification asks for: the distance between the accesses
of one port, counted in accesses of all ports, and that between the ports. -/
def strides? (spec : PatternSpec) : Option (Nat × Nat) :=
  match foldWord spec.kind with
  | "strided" => some (max spec.stepStride 1, spec.portStride)
  | "hot_line" => some (1, 1)
  | _ => none

/-- The bytes of a region of some size that a pattern uses: those it asks for,
or else the whole region, or a single line of 64 bytes where all ports are to
meet; and never less than an access. -/
def windowIn (spec : PatternSpec) (regionBytes : Nat) : Nat :=
  max
    (min (spec.withinBytes.getD (if foldWord spec.kind = "hot_line" then 64 else regionBytes))
      regionBytes)
    (max spec.reqBytes 1)

end PatternSpec

/-- A specification that asks for strides gets them. -/
theorem Pattern.of_strides {config : TrafficConfig} {ports step stride : Nat} {spec : PatternSpec}
    {p : Pattern}
    (h : ofSpec config ports spec = .ok p) (hstrides : spec.strides? = some (step, stride)) :
    p.shape = .strided step stride ∧ p.reqBytes = max spec.reqBytes 1 ∧
      p.window = spec.windowIn (config.layout.bytesOf p.region) := by
  obtain ⟨hreq, -, -, hwindow, hshape⟩ := parts_of_ofSpec h
  rw [hreq] at hwindow
  refine ⟨?_, hreq, hwindow⟩
  unfold PatternSpec.strides? at hstrides
  split at hstrides
  · rename_i hkind
    cases hstrides
    rw [hkind] at hshape
    exact (Except.ok.inj hshape).symm
  · rename_i hkind
    cases hstrides
    rw [hkind] at hshape
    exact (Except.ok.inj hshape).symm
  · cases hstrides

/-- Patterns stand in the order of their specifications. -/
theorem PatternSet.getElem?_compile {config : TrafficConfig} {ports index i : Nat}
    {specs : List PatternSpec} {patterns : List Pattern} {spec : PatternSpec}
    (h : compile config ports index specs = .ok patterns) (hspec : specs[i]? = some spec) :
    ∃ p, patterns[i]? = some p ∧ Pattern.ofSpec config ports spec = .ok p := by
  induction specs generalizing index patterns i with
  | nil => cases hspec
  | cons first rest ih =>
    unfold compile at h
    split at h
    · cases h
    · rename_i p hp
      obtain ⟨ps, hrest, rfl⟩ := exists_of_map_eq_ok h
      cases i with
      | zero =>
        cases hspec
        exact ⟨p, rfl, hp⟩
      | succ i =>
        rw [List.getElem?_cons_succ] at hspec ⊢
        exact ih hrest hspec

/-- **When the place of an access is computed**, before it is brought into the
window: the slot has to be a word, and so has the product. -/
theorem Pattern.rawOffset?_strided {p : Pattern} {step stride ports : Nat}
    (hshape : p.shape = .strided step stride)
    (hports : 0 < ports) (hbytes : 0 < p.reqBytes) (reqs req port : Nat) :
    p.rawOffset? ports reqs req port =
      if req * step * ports + port ≤ maxWord ∧
          (req * step * ports + port) * stride * p.reqBytes ≤ maxWord then
        some ((req * step * ports + port) * stride * p.reqBytes)
      else none := by
  -- the factors that come first are not larger than what comes of them
  have hahead : req * step ≤ req * step * ports := Nat.le_mul_of_pos_right _ hports
  have hdistance : (req * step * ports + port) * stride ≤
      (req * step * ports + port) * stride * p.reqBytes :=
    Nat.le_mul_of_pos_right _ hbytes
  unfold rawOffset?
  rw [hshape]
  simp only
  ext raw
  simp only [Option.bind_eq_bind, Option.bind_eq_some_iff, mulWord?_eq_some_iff,
    addWord?_eq_some_iff, Option.ite_none_right_eq_some, Option.some.injEq]
  constructor
  · rintro ⟨_, ⟨rfl, -⟩, _, ⟨rfl, -⟩, _, ⟨rfl, hslot⟩, _, ⟨rfl, -⟩, rfl, hraw⟩
    exact ⟨⟨hslot, hraw⟩, rfl⟩
  · rintro ⟨⟨hslot, hraw⟩, rfl⟩
    exact ⟨_, ⟨rfl, by omega⟩, _, ⟨rfl, by omega⟩, _, ⟨rfl, hslot⟩, _,
      ⟨rfl, by omega⟩, rfl, hraw⟩

/-- **Places of strided accesses.**  Take any configured patterns that are
accepted, and one of them with strides.  For every access of every port, the
place is the slot of the access times the distance of the ports times the bytes
of an access, brought into the window and rounded down to a multiple of these
bytes, if the slot and the product are words; and if they are not, the
computation is interrupted. -/
theorem strided_offset_exact {config : TrafficConfig} {ports : Nat} {set : PatternSet}
    (hset : PatternSet.ofConfig config ports = .ok set) {i step stride : Nat} {spec : PatternSpec}
    (hspec : config.patterns[i]? = some spec) (hstrides : spec.strides? = some (step, stride)) :
    ∃ p, set.patterns[i]? = some p ∧ p.reqBytes = max spec.reqBytes 1 ∧
      p.window = spec.windowIn (config.layout.bytesOf p.region) ∧
      ∀ req port,
        let slot := req * step * set.ports + port
        let raw := slot * stride * p.reqBytes
        set.offset i req port =
          if slot ≤ maxWord ∧ raw ≤ maxWord then
            .ok (some (raw % p.window / p.reqBytes * p.reqBytes))
          else .error .overflow := by
  obtain ⟨patterns, hcompiled, rfl⟩ := exists_of_map_eq_ok hset
  obtain ⟨p, hp, hmade⟩ := PatternSet.getElem?_compile hcompiled hspec
  obtain ⟨hshape, hbytes, hwindow⟩ := Pattern.of_strides hmade hstrides
  obtain ⟨hpow, -⟩ := Pattern.of_ofSpec hmade
  refine ⟨p, hp, hbytes, hwindow, fun req port => ?_⟩
  have hports : 0 < max ports 1 := Nat.lt_of_lt_of_le Nat.zero_lt_one (Nat.le_max_right _ _)
  unfold PatternSet.offset Pattern.offset
  simp only [hp, Pattern.rawOffset?_strided hshape hports (pos_of_isPowerOfTwo hpow)]
  split_ifs with hword
  · simp only [Pattern.place, blockBase_eq_mul hpow, Nat.mul_comm p.reqBytes, Except.map]
  · rfl

/-- Sixteen ports that read every second access of theirs, eight accesses apart. -/
def interleavedLoads : TrafficConfig where
  reqsPerPattern := 8
  patterns := [{ kind := "strided", op := "read", stepStride := 2, portStride := 8 }]

/-- The third access of the fourth port is in slot 67, and so at 67 times 32
bytes. -/
theorem strided_offset_exact_interleavedLoads :
    ∃ set, PatternSet.ofConfig interleavedLoads 16 = .ok set ∧
    set.offset 0 2 3 = .ok (some 2144) := by
  obtain ⟨set, hset, hvalues⟩ := exists_of_any (x := PatternSet.ofConfig interleavedLoads 16)
    (p := fun set => set.ports == 16 && set.patterns[0]?.any fun p => p.reqBytes == 4 &&
      p.window == 65536)
    (by decide +kernel)
  have hstrides : PatternSpec.strides?
      { kind := "strided", op := "read", stepStride := 2, portStride := 8 } =
      some (2, 8) := by decide +kernel
  obtain ⟨p, hp, -, -, hoffset⟩ := strided_offset_exact (i := 0) hset rfl hstrides
  rw [hp, Option.any_some, Bool.and_eq_true, Bool.and_eq_true, beq_iff_eq, beq_iff_eq, beq_iff_eq]
    at hvalues
  obtain ⟨hports, hbytes, hwindow⟩ := hvalues
  refine ⟨set, hset, ?_⟩
  rw [hoffset 2 3, hports, hbytes, hwindow]
  rfl

/-- A port that is to make two accesses of a small window, with the largest
strides that there are. -/
def wideStrides : TrafficConfig where
  reqsPerPattern := 2
  patterns := [{
    kind := "strided", op := "read", stepStride := 0xffffffff, portStride :=
    0xffffffff, withinBytes := some 44 }]

/-- **Patterns are accepted although some of their accesses have no place**:
here the second access, whose place would be 36. -/
theorem wide_strides_overflow : ∃ set, PatternSet.ofConfig wideStrides 1 = .ok set ∧
    ¬ ∀ req < set.reqsPerPattern, ∀ port < set.ports, ∃ place,
    set.offset 0 req port = .ok (some place) := by
  obtain ⟨set, hset, hvalues⟩ := exists_of_any (x := PatternSet.ofConfig wideStrides 1)
    (p := fun set => decide (set.reqsPerPattern = 2) && decide (set.ports = 1) &&
      (set.offset 0 1 0).toOption.isNone) (by decide +kernel)
  refine ⟨set, hset, fun hclaim => ?_⟩
  simp only [Bool.and_eq_true, decide_eq_true_eq] at hvalues
  obtain ⟨⟨hreqs, hports⟩, hnone⟩ := hvalues
  obtain ⟨place, hplace⟩ := hclaim 1 (by omega) 0 (by omega)
  rw [hplace] at hnone
  cases hnone

end MemPort
