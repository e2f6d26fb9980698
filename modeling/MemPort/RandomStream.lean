/-!
# A stream of random words

The keystream of the ChaCha cipher with twelve rounds, read as 64-bit words, and
the expansion of a 64-bit seed into a key.  A stream is a value: reading a word
gives the word and the stream behind it.

The sixteen words of a block stand in four rows.  A column round acts on all
four columns at once, and a diagonal round is a column round between turned
rows.

## Main definitions

* `RandomStream.ofSeed` — the stream of a seed.
* `RandomStream.next` — a word, and the stream behind it.
* `RandomStream.below` — a number below a bound, every one as likely as every
  other.

## References

`SPEC_FULL.md`, sections 10.7 and 10.8: random patterns are drawn from a seed.
-/

namespace MemPort

namespace ChaCha

/-- A row of four words. -/
structure Row where
  /-- The word of the first column. -/
  a : UInt32
  /-- The word of the second column. -/
  b : UInt32
  /-- The word of the third column. -/
  c : UInt32
  /-- The word of the fourth column. -/
  d : UInt32
  deriving DecidableEq, Repr, Inhabited

namespace Row

/-- Combine two rows column by column. -/
def zip (f : UInt32 → UInt32 → UInt32) (x y : Row) : Row :=
  ⟨f x.a y.a, f x.b y.b, f x.c y.c, f x.d y.d⟩

/-- Change every word of a row. -/
def map (f : UInt32 → UInt32) (x : Row) : Row := ⟨f x.a, f x.b, f x.c, f x.d⟩

/-- Turn a row by one column. -/
def turn (x : Row) : Row := ⟨x.b, x.c, x.d, x.a⟩

/-- The words of a row. -/
def words (x : Row) : List UInt32 := [x.a, x.b, x.c, x.d]

end Row

/-- Rotate a word to the left. -/
def rotateLeft (w n : UInt32) : UInt32 := (w <<< n) ||| (w >>> (32 - n))

/-- The sixteen words of a block. -/
structure Block where
  /-- The constants. -/
  r0 : Row
  /-- The first half of the key. -/
  r1 : Row
  /-- The second half of the key. -/
  r2 : Row
  /-- The counter. -/
  r3 : Row
  deriving DecidableEq, Repr, Inhabited

namespace Block

/-- Half a column round: two additions, each followed by a rotation of what it
was mixed into. -/
def mix (m n : UInt32) (x : Block) : Block :=
  let r0 := x.r0.zip (· + ·) x.r1
  let r3 := (x.r3.zip (· ^^^ ·) r0).map (rotateLeft · m)
  let r2 := x.r2.zip (· + ·) r3
  let r1 := (x.r1.zip (· ^^^ ·) r2).map (rotateLeft · n)
  ⟨r0, r1, r2, r3⟩

/-- A round on the four columns. -/
def columnRound (x : Block) : Block := (x.mix 16 12).mix 8 7

/-- Turn the rows so that the diagonals stand in columns. -/
def toDiagonals (x : Block) : Block := ⟨x.r0, x.r1.turn, x.r2.turn.turn, x.r3.turn.turn.turn⟩

/-- Turn the rows back. -/
def ofDiagonals (x : Block) : Block := ⟨x.r0, x.r1.turn.turn.turn, x.r2.turn.turn, x.r3.turn⟩

/-- Turned rows are turned back. -/
theorem ofDiagonals_toDiagonals (x : Block) : x.toDiagonals.ofDiagonals = x := rfl

/-- A round on the columns and one on the diagonals. -/
def doubleRound (x : Block) : Block := x.columnRound.toDiagonals.columnRound.ofDiagonals

/-- The block that encrypts: six double rounds, added to the block they started
from. -/
def scramble (x : Block) : Block :=
  let y := (List.range 6).foldl (fun y _ => y.doubleRound) x
  ⟨y.r0.zip (· + ·) x.r0, y.r1.zip (· + ·) x.r1, y.r2.zip (· + ·) x.r2,
    y.r3.zip (· + ·) x.r3⟩

/-- The words of a block in order. -/
def words (x : Block) : List UInt32 := x.r0.words ++ x.r1.words ++ x.r2.words ++ x.r3.words

end Block

/-- The constant row. -/
def constants : Row := ⟨0x61707865, 0x3320646e, 0x79622d32, 0x6b206574⟩

/-- Words joined in pairs, the lower half first. -/
def joinPairs : List UInt32 → List UInt64
  | lo :: hi :: rest => (lo.toUInt64 ||| (hi.toUInt64 <<< 32)) :: joinPairs rest
  | _ => []

/-- The words of the keystream in the block of a given number. -/
def keystream (lowKey highKey : Row) (number : UInt64) : List UInt64 :=
  let counter : Row := ⟨number.toUInt32, (number >>> 32).toUInt32, 0, 0⟩
  joinPairs (Block.scramble ⟨constants, lowKey, highKey, counter⟩).words

end ChaCha

/-- A stream of random words. -/
structure RandomStream where
  /-- The first half of the key. -/
  lowKey : ChaCha.Row
  /-- The second half of the key. -/
  highKey : ChaCha.Row
  /-- The number of the next block. -/
  block : UInt64
  /-- The words of the current block that have not been read. -/
  pending : List UInt64
  deriving Repr, Inhabited

namespace RandomStream

/-- A word of a key, drawn from a seed, and the seed of the next word. -/
def keyWord (seed : UInt64) : UInt32 × UInt64 :=
  let s := seed * 6364136223846793005 + 11634580027462260723
  let x := (((s >>> 18) ^^^ s) >>> 27).toUInt32
  let n := (s >>> 59).toUInt32
  ((x >>> n) ||| (x <<< ((32 - n) % 32)), s)

/-- Half a key, drawn from a seed, and the seed of the next word. -/
def keyRow (seed : UInt64) : ChaCha.Row × UInt64 :=
  let (a, s) := keyWord seed
  let (b, s) := keyWord s
  let (c, s) := keyWord s
  let (d, s) := keyWord s
  (⟨a, b, c, d⟩, s)

/-- The stream of a seed. -/
def ofSeed (seed : UInt64) : RandomStream :=
  let (lowKey, s) := keyRow seed
  let (highKey, _) := keyRow s
  ⟨lowKey, highKey, 0, []⟩

/-- A word, and the stream behind it. -/
def next (r : RandomStream) : UInt64 × RandomStream :=
  match r.pending with
  | w :: rest => (w, { r with pending := rest })
  | [] =>
      let words := ChaCha.keystream r.lowKey r.highKey r.block
      (words.headD 0, { r with block := r.block + 1, pending := words.tail })

/-- How many words are tried for a number below a bound.  Every word serves with
a chance of at least one half, so the trials do not run out in practice. -/
def trials : Nat := 512

/-- The greatest lower half that a product may have: among the words that pass,
every result is equally likely. -/
def acceptanceZone (bound : Nat) : Nat := bound <<< (63 - bound.log2) - 1

/-- A number below a positive bound, in at most the given number of trials. -/
def draw (bound : Nat) : Nat → RandomStream → Nat × RandomStream
  | 0, r => (0, r)
  | n + 1, r =>
      let (word, r) := r.next
      let product := word.toNat * bound
      if product % 1 <<< 64 ≤ acceptanceZone bound then (product >>> 64, r) else draw bound n r

/-- A number below a positive bound. -/
def below (r : RandomStream) (bound : Nat) : Nat × RandomStream := draw bound trials r

/-- A number from `lo` up to but not including `hi`, which is greater. -/
def between (r : RandomStream) (lo hi : Nat) : Nat × RandomStream :=
  let (n, r) := r.below (hi - lo)
  (lo + n, r)

/-- As many numbers from a range as asked for. -/
def manyBetween (r : RandomStream) (lo hi count : Nat) : Array Nat :=
  ((List.range count).foldl
    (fun (drawn, r) _ =>
      let (x, r) := between r lo hi
      (drawn.push x, r))
    (#[], r)).1

end RandomStream

end MemPort
