/-!
# Scanning text

A scanner reads from the front of a text and fails or returns what it read and
the rest.  An alternative starts over at the place where the first scanner
started.

## Main definitions

* `Scanner` — the type of scanners.
* `Scanner.satisfying`, `Scanner.exactly`, `Scanner.run`, `Scanner.run1` —
  single characters, words and runs of characters.
* `Scanner.many`, `Scanner.separated` — repetition, until the scanner fails or
  reads nothing.

## References

`SPEC_FULL.md`, section 10.4: the configuration is a TOML document.
-/

namespace MemPort

/-- Read from the front of a text. -/
abbrev Scanner (α : Type) := StateT (List Char) Option α

namespace Scanner

/-- A character that passes a test. -/
def satisfying (p : Char → Bool) : Scanner Char
  | c :: rest => if p c then some (c, rest) else none
  | [] => none

/-- A given character. -/
def one (c : Char) : Scanner Unit := do
  let _ ← satisfying (· == c)

/-- A given word. -/
def exactly (word : String) : Scanner Unit := fun cs =>
  if word.toList.isPrefixOf cs then some ((), cs.drop word.length) else none

/-- The longest run of characters that pass a test. -/
def run (p : Char → Bool) : Scanner (List Char) := fun cs =>
  some (cs.takeWhile p, cs.dropWhile p)

/-- The longest run, if there is at least one character in it. -/
def run1 (p : Char → Bool) : Scanner (List Char) := do
  let first ← satisfying p
  let rest ← run p
  return first :: rest

/-- A given number of characters that pass a test. -/
def times (p : Char → Bool) : Nat → Scanner (List Char)
  | 0 => pure []
  | n + 1 => do
      let first ← satisfying p
      let rest ← times p n
      return first :: rest

/-- The end of the text. -/
def atEnd : Scanner Unit
  | [] => some ((), [])
  | _ => none

/-- What a scanner reads, or nothing where it fails. -/
def opt (s : Scanner α) : Scanner (Option α) := fun cs =>
  match s cs with
  | some (a, rest) => some (some a, rest)
  | none => some (none, cs)

/-- Fail unless a condition holds. -/
def require (b : Bool) : Scanner Unit := if b then pure () else failure

/-- Repeat a scanner at most a number of times, until it fails or reads nothing. -/
def atMost (s : Scanner α) : Nat → Scanner (List α)
  | 0 => pure []
  | n + 1 => fun cs =>
      match s cs with
      | none => some ([], cs)
      | some (a, rest) =>
          if rest.length < cs.length then
            (atMost s n rest).map fun r => (a :: r.1, r.2)
          else some ([a], rest)

/-- Repeat a scanner until it fails or reads nothing. -/
def many (s : Scanner α) : Scanner (List α) := fun cs => atMost s cs.length cs

/-- One or more readings with a separator between them. -/
def separated (s : Scanner α) (separator : Scanner Unit) : Scanner (List α) := do
  let first ← s
  let rest ← many do
    separator
    s
  return first :: rest

end Scanner

end MemPort
