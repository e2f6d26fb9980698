import MemPort.Failure
import MemPort.RandomStream
import MemPort.Text.Fold
import MemPort.Traffic.Config

/-!
# Patterns of accesses

A `Pattern` says for every access of every port what it does and where.  It is
made from a `PatternSpec`, whose words are checked on the way; what a random
pattern draws is drawn then, so a pattern gives the same answer whenever it is
asked.

## Main definitions

* `Operation`, `Region`, `Shape` — what is done, in which region, and how
  addresses follow.
* `PatternError` — why a configured pattern is no pattern.
* `Pattern.ofSpec`, `Pattern.offset` — a pattern, and the place of an access
  in its region.
* `PatternSet` — the patterns of a run.

## Main results

* `Pattern.place_lt`, `Pattern.dvd_place` — an access starts in the window of
  its pattern and at a multiple of its size.

## References

`SPEC_FULL.md`, sections 10.1 and 10.7: strided, random, hot-line and LL/SC pair
patterns.
-/

namespace MemPort

/-! ### Operations and regions -/

/-- What an access of a pattern does. -/
inductive Operation where
  /-- It reads. -/
  | read
  /-- It writes. -/
  | write
  /-- It swaps. -/
  | swap
  deriving DecidableEq, Repr, Inhabited

namespace Operation

/-- Whether an operation stores. -/
def isStore : Operation → Bool
  | read => false
  | write | swap => true

/-- The name under which an operation is reported. -/
def label : Operation → String
  | read => "Read"
  | write => "Write"
  | swap => "Swap"

/-- The letter of an operation in the name of a pattern. -/
def letter : Operation → String
  | read => "r"
  | write => "w"
  | swap => "x"

/-- The operation that a folded word stands for. -/
def ofWord? : String → Option Operation
  | "read" | "r" | "load" => some read
  | "write" | "w" | "store" => some write
  | "swap" | "x" | "amoswap" => some swap
  | _ => none

end Operation

/-- The part of memory that a pattern addresses. -/
inductive Region where
  /-- The region that all ports read. -/
  | sharedRegion
  /-- The region of a single port. -/
  | privateRegion
  deriving DecidableEq, Repr, Inhabited

/-- The name under which a region is reported. -/
def Region.label : Region → String
  | sharedRegion => "Shared"
  | privateRegion => "Private"

/-- Why a configured pattern is no pattern. -/
inductive PatternError where
  /-- The size of an access is not a power of two. -/
  | oddSize (size : Nat)
  /-- No operation has this name. -/
  | unknownOperation (word : String)
  /-- A store was to go to the shared region. -/
  | sharedStore
  /-- No region has this name. -/
  | unknownRegion (word : String)
  /-- No way of choosing addresses has this name. -/
  | unknownKind (word : String)
  deriving DecidableEq, Repr

/-- The wording of what is wrong with a pattern. -/
def PatternError.message : PatternError → String
  | oddSize size => s!"req_bytes {size} is not a power of two"
  | unknownOperation word => s!"unknown op '{word}' (expected read|write|swap)"
  | sharedStore => "stores must target the private region"
  | unknownRegion word => s!"unknown region '{word}' (expected shared|private)"
  | unknownKind word =>
      s!"unknown pattern kind '{word}' (expected strided|hot_line|random|llsc)"

/-- The operation that a word stands for. -/
def Operation.parse (word : String) : Except PatternError Operation :=
  match Operation.ofWord? (foldWord word) with
  | some op => .ok op
  | none => .error (.unknownOperation (foldWord word))

/-- The region of an operation: the one that a word names, or else the one that
suits it.  Stores never go to the shared region. -/
def Region.resolve (op : Operation) : Option String → Except PatternError Region
  | none => .ok (if op.isStore then privateRegion else sharedRegion)
  | some word =>
      match foldWord word with
      | "private" => .ok privateRegion
      | "shared" => if op.isStore then .error .sharedStore else .ok sharedRegion
      | other => .error (.unknownRegion other)

/-! ### Patterns -/

/-- How the addresses of a pattern follow each other. -/
inductive Shape where
  /-- At fixed distances. -/
  | strided (step port : Nat)
  /-- As drawn, the accesses of the first port before those of the second. -/
  | scattered (offsets : Array Nat)
  /-- Increments of the counter, which is outside the regions. -/
  | increment
  deriving Repr, Inhabited

/-- A pattern of accesses. -/
structure Pattern where
  /-- The name. -/
  name : String
  /-- What an access does. -/
  op : Operation
  /-- The region. -/
  region : Region
  /-- The bytes of an access. -/
  reqBytes : Nat
  /-- The bytes of the region that are used. -/
  window : Nat
  /-- How the addresses follow each other. -/
  shape : Shape
  deriving Repr, Inhabited

namespace Pattern

/-- The name of a pattern that has none of its own. -/
def defaultName (kind : String) (seed reqBytes : Nat) (op : Operation) : Shape → String
  | .increment => "llsc_increment"
  | .strided step port =>
      if kind = "hot_line" then s!"hot_line@{reqBytes}_{op.letter}"
      else s!"strided({step}, {port})@{reqBytes}_{op.letter}"
  | .scattered _ => s!"random({seed})@{reqBytes}_{op.letter}"

/-- The slots that a random pattern draws from: from the first to behind the
last. -/
def drawRange (spec : PatternSpec) (window reqBytes : Nat) : Nat × Nat :=
  let hi := if spec.randomMax = 0 then window / reqBytes else spec.randomMax
  (spec.randomMin, max hi (spec.randomMin + 1))

/-- The shape that a folded word stands for. -/
def shapeOf (spec : PatternSpec) (kind : String) (window reqBytes draws : Nat) :
    Except PatternError Shape :=
  match kind with
  | "strided" => .ok (.strided (max spec.stepStride 1) spec.portStride)
  | "hot_line" => .ok (.strided 1 1)
  | "random" =>
      let (lo, hi) := drawRange spec window reqBytes
      let slots := (RandomStream.ofSeed spec.seed.toUInt64).manyBetween lo hi draws
      .ok (.scattered (slots.map (· * reqBytes)))
  | "llsc" | "atomic" => .ok .increment
  | other => .error (.unknownKind other)

/-- The pattern that a specification describes, for a number of ports. -/
def ofSpec (config : TrafficConfig) (ports : Nat) (spec : PatternSpec) :
    Except PatternError Pattern := do
  let reqBytes := max spec.reqBytes 1
  if !isPowerOfTwo reqBytes then throw (.oddSize reqBytes)
  let op ← Operation.parse spec.op
  let region ← Region.resolve op spec.region
  let regionBytes := match region with
    | .sharedRegion => config.layout.sharedBytes
    | .privateRegion => config.layout.privateBytes
  let kind := foldWord spec.kind
  let wanted := spec.withinBytes.getD (if kind = "hot_line" then 64 else regionBytes)
  let window := max (min wanted regionBytes) reqBytes
  let shape ← shapeOf spec kind window reqBytes (ports * max config.reqsPerPattern 1)
  let name := if spec.name = "" then defaultName kind spec.seed reqBytes op shape else spec.name
  return { name, op, region, reqBytes, window, shape }

/-- Whether a pattern increments the counter. -/
def isAtomic (p : Pattern) : Bool :=
  match p.shape with
  | .increment => true
  | _ => false

/-- The place of an access before it is brought into the window, if it is a word. -/
def rawOffset? (p : Pattern) (ports reqs req port : Nat) : Option Nat :=
  match p.shape with
  | .strided step stride => do
      let ahead ← mulWord? req step
      let ahead ← mulWord? ahead ports
      let slot ← addWord? ahead port
      let distance ← mulWord? slot stride
      mulWord? distance p.reqBytes
  | .scattered offsets => do
      let before ← mulWord? port reqs
      let index ← addWord? before req
      return offsets[index]?.getD 0
  | .increment => some 0

/-- A place brought into the window, at a multiple of the size of an access, so
that no access straddles a line. -/
def place (p : Pattern) (raw : Nat) : Nat := blockBase (raw % p.window) p.reqBytes

/-- The place of an access in its region. -/
def offset (p : Pattern) (ports reqs req port : Nat) : Except Assertion Nat :=
  match p.rawOffset? ports reqs req port with
  | some raw => .ok (p.place raw)
  | none => .error .overflow

/-- An access starts in the window of its pattern. -/
theorem place_lt {p : Pattern} (h : 0 < p.window) (raw : Nat) : p.place raw < p.window :=
  Nat.lt_of_le_of_lt (blockBase_le _ _) (Nat.mod_lt _ h)

/-- An access starts at a multiple of its size. -/
theorem dvd_place {p : Pattern} (h : isPowerOfTwo p.reqBytes = true) (raw : Nat) :
    p.reqBytes ∣ p.place raw := by
  unfold place
  rw [blockBase_eq_sub_mod h]
  exact Nat.dvd_sub_mod _

end Pattern

/-! ### The patterns of a run -/

/-- The patterns of a run, in the order in which they run. -/
structure PatternSet where
  /-- The patterns. -/
  patterns : List Pattern
  /-- The number of ports. -/
  ports : Nat
  /-- The accesses of a port in a pattern. -/
  reqsPerPattern : Nat
  deriving Repr, Inhabited

namespace PatternSet

/-- Make patterns in order; the first that fails is reported with its number. -/
def compile (config : TrafficConfig) (ports : Nat) :
    Nat → List PatternSpec → Except (Nat × PatternError) (List Pattern)
  | _, [] => .ok []
  | index, spec :: rest =>
      match Pattern.ofSpec config ports spec with
      | .error e => .error (index, e)
      | .ok p => (compile config ports (index + 1) rest).map (p :: ·)

/-- The configured patterns, for a number of ports. -/
def ofConfig (config : TrafficConfig) (ports : Nat) :
    Except (Nat × PatternError) PatternSet :=
  let ports := max ports 1
  (compile config ports 0 config.patterns).map fun patterns =>
    { patterns, ports, reqsPerPattern := max config.reqsPerPattern 1 }

/-- What is wrong with a configured pattern, with the cause behind it, outermost
first. -/
def errorChain (e : Nat × PatternError) : List String :=
  [s!"invalid traffic pattern {e.1}", e.2.message]

/-- The number of patterns. -/
def length (s : PatternSet) : Nat := s.patterns.length

/-- The name of a pattern. -/
def name? (s : PatternSet) (index : Nat) : Option String := s.patterns[index]?.map (·.name)

/-- The place of an access of a pattern in its region, if there is such a
pattern. -/
def offset (s : PatternSet) (index req port : Nat) : Except Assertion (Option Nat) :=
  match s.patterns[index]? with
  | none => .ok none
  | some p => (p.offset s.ports s.reqsPerPattern req port).map some

end PatternSet

end MemPort
