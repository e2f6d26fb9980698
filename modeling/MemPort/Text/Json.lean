/-!
# Documents of numbers

A small part of JSON: numbers, nothing, lists and records.  A document is
written over several lines, two blanks deeper at every level; an empty list or
record stays on its line.

## Main definitions

* `Json` — a document.
* `Json.lines` — its lines.

## References

`SPEC_FULL.md`, sections 10.5 and 10.7: the counters and the summary are printed
as a document.
-/

namespace MemPort

/-- A document. -/
inductive Json where
  /-- Nothing. -/
  | null
  /-- A number. -/
  | number (n : Nat)
  /-- A list. -/
  | array (items : List Json)
  /-- A record, its fields in the order in which they are written. -/
  | object (fields : List (String × Json))
  deriving Repr, Inhabited

namespace Json

/-- Lines one level deeper. -/
def deeper (ls : List String) : List String := ls.map ("  " ++ ·)

/-- Put a word before the first line. -/
def afterWord (word : String) : List String → List String
  | [] => [word]
  | first :: rest => (word ++ first) :: rest

/-- Put a mark behind the last line. -/
def beforeMark (mark : String) : List String → List String
  | [] => [mark]
  | [last] => [last ++ mark]
  | first :: rest => first :: beforeMark mark rest

/-- Blocks of lines one after the other, with a comma behind every block but the
last. -/
def joinBlocks : List (List String) → List String
  | [] => []
  | [block] => block
  | block :: rest => beforeMark "," block ++ joinBlocks rest

/-- Blocks of lines between an opening and a closing mark. -/
def enclose (opening closing : String) : List (List String) → List String
  | [] => [opening ++ closing]
  | blocks => opening :: deeper (joinBlocks blocks) ++ [closing]

mutual

/-- The lines of a document. -/
def lines : Json → List String
  | null => ["null"]
  | number n => [toString n]
  | array items => enclose "[" "]" (itemBlocks items)
  | object fields => enclose "\x7b" "\x7d" (fieldBlocks fields)

/-- The lines of every item. -/
def itemBlocks : List Json → List (List String)
  | [] => []
  | item :: rest => item.lines :: itemBlocks rest

/-- The lines of every field. -/
def fieldBlocks : List (String × Json) → List (List String)
  | [] => []
  | (name, value) :: rest => afterWord s!"\"{name}\": " value.lines :: fieldBlocks rest

end

/-- The record of named numbers. -/
def ofNamed (named : List (String × Nat)) : Json :=
  .object (named.map fun f => (f.1, .number f.2))

/-- A number that may be missing. -/
def ofOption : Option Nat → Json
  | none => .null
  | some n => .number n

end Json

end MemPort
