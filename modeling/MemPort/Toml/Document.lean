import MemPort.Toml.Date

/-!
# Configuration documents

A document is read in three passes: the text into statements, the statements
into tables, and the tables into their final form.  Only the second pass minds
which names are taken, and only the third minds which tables stand for dates.

## Main definitions

* `Toml.value` — a value of any kind, up to a depth.
* `Toml.Statement`, `Toml.statements` — the statements of a document.
* `Toml.Draft`, `Toml.Draft.add?` — a document in the making.
* `Toml.complete?` — the final form of a value.
* `Toml.parse?` — the fields of a document.

## References

`SPEC_FULL.md`, section 10.4: the configuration is a TOML document.
-/

namespace MemPort

namespace Toml

open Scanner

/-! ### Keys -/

/-- The number of names from which on a key is too long, and of brackets from
which on a value is too deep. -/
def nestingLimit : Nat := 80

/-- A name. -/
def name : Scanner String :=
  basicText <|> literalText <|> (do return String.ofList (← run1 isBareKeyChar))

/-- The names of a key, with points between them. -/
def key : Scanner (List String) := do
  let names ← separated (do
    spaces
    let n ← name
    spaces
    return n) (one '.')
  require (names.length < nestingLimit)
  return names

/-! ### Values -/

/-- A value that holds no other values. -/
def scalar : Scanner Toml :=
  (do return .string (← text)) <|> dateTime <|> floating <|> integerValue <|> truthValue

/-- A list of values, over any number of lines and with a comma behind the last
or not. -/
def listOf (element : Scanner Toml) : Scanner Toml := do
  one '['
  let items ← opt do
    let items ← separated (do
      filler
      let v ← element
      filler
      return v) (one ',')
    let _ ← opt (one ',')
    return items
  filler
  one ']'
  return .array (items.getD [])

/-- A key and its value. -/
def pairOf (element : Scanner Toml) : Scanner (List String × Toml) := do
  let k ← key
  one '='
  spaces
  let v ← element
  return (k, v)

/-- Give the field at the end of a key a value. -/
def assignKey? (k : List String) (v : Toml) (kind : TableKind) (fields : Fields) : Option Fields :=
  k.getLast?.bind fun last => assign? k.dropLast last v kind fields

/-- The fields of an inline table. -/
def inlineFields? (pairs : List (List String × Toml)) : Option Fields :=
  pairs.foldlM (fun fields p => assignKey? p.1 p.2 .inlined fields) []

/-- A table between braces, on one line. -/
def inlineTableOf (element : Scanner Toml) : Scanner Toml := do
  one '\x7b'
  let pairs ← opt <| separated (do
    let p ← pairOf element
    spaces
    return p) (one ',')
  spaces
  one '\x7d'
  match inlineFields? (pairs.getD []) with
  | some fields => return .table .inlined fields
  | none => failure

/-- A value, with brackets up to a depth. -/
def value : Nat → Scanner Toml
  | 0 => scalar
  | depth + 1 => scalar <|> listOf (value depth) <|> inlineTableOf (value depth)

/-! ### Statements -/

/-- A line of a document. -/
inductive Statement where
  /-- A line without meaning. -/
  | blank
  /-- A header. -/
  | header (k : List String)
  /-- A header in double brackets. -/
  | arrayHeader (k : List String)
  /-- A key and its value. -/
  | assignment (k : List String) (v : Toml)
  deriving Repr, Inhabited

/-- What may follow on a line: a comment, and then the end of the line or of the
text. -/
def lineEnd : Scanner Unit := do
  spaces
  let _ ← opt comment
  newline <|> atEnd

/-- A statement, to the end of its line. -/
def statement : Scanner Statement :=
  (do
    newline
    return .blank) <|> (do
    comment
    newline <|> atEnd
    return .blank) <|> (do
    exactly "[["
    let k ← key
    exactly "]]"
    lineEnd
    return .arrayHeader k) <|> (do
    one '['
    let k ← key
    one ']'
    lineEnd
    return .header k) <|> (do
    let (k, v) ← pairOf (value (nestingLimit - 1))
    lineEnd
    return .assignment k v)

/-- The statements of a document; a mark of the byte order in front is passed
over. -/
def statements : Scanner (List Statement) := do
  let _ ← opt (one '\uFEFF')
  spaces
  let lines ← many do
    let s ← statement
    spaces
    return s
  atEnd
  return lines

/-! ### Tables -/

/-- A document in the making. -/
structure Draft where
  /-- The fields so far. -/
  root : Fields
  /-- The path of the table that the last header opened. -/
  current : List String
  deriving Repr, Inhabited

/-- Add a statement to a document. -/
def Draft.add? (d : Draft) : Statement → Option Draft
  | .blank => some d
  | .header k => do
      let last ← k.getLast?
      let root ← openTable? k.dropLast last d.root
      return ⟨root, k⟩
  | .arrayHeader k => do
      let last ← k.getLast?
      let root ← openArrayTable? k.dropLast last d.root
      return ⟨root, k⟩
  | .assignment k v => do
      let root ← alter false (assignKey? k v) d.current .opened d.root
      return { d with root }

/-! ### Final form -/

/-- The name of the field by which a table stands for a date. -/
def dateKey : String := "$__toml_private_datetime"

/-- The date that the value of such a field gives. -/
def dateOf? : Toml → Option Toml
  | .string s => (dateOfText? s).map .datetime
  | _ => none

mutual

/-- The final form of a value.  A table whose first field has the name for dates
stands for the date in that field, whatever else is in the table; it is
malformed if there is none. -/
def complete? : Toml → Option Toml
  | .array items => (completeItems? items).map .array
  | .tables items => (completeTables? items).map fun newestFirst => .array newestFirst.reverse
  | .table kind fields => completeTable? kind fields
  | v => some v

/-- The final forms of the items of a list. -/
def completeItems? : List Toml → Option (List Toml)
  | [] => some []
  | v :: rest => do return (← complete? v) :: (← completeItems? rest)

/-- The final forms of tables that headers opened. -/
def completeTables? : List (List (String × Toml)) → Option (List Toml)
  | [] => some []
  | fields :: rest => do return (← completeTable? .opened fields) :: (← completeTables? rest)

/-- The final form of a table. -/
def completeTable? (kind : TableKind) : List (String × Toml) → Option Toml
  | [] => some (.table kind [])
  | (name, v) :: rest =>
      if name = dateKey then dateOf? v
      else do return .table kind ((name, ← complete? v) :: (← completeFields? rest))

/-- The final forms of fields. -/
def completeFields? : List (String × Toml) → Option Fields
  | [] => some []
  | (name, v) :: rest => do return (name, ← complete? v) :: (← completeFields? rest)

end

/-! ### Documents -/

/-- The fields of a document, or nothing if it is malformed.  The document
itself is always a table. -/
def parse? (document : String) : Option Fields := do
  let (lines, _) ← statements document.toList
  let draft ← lines.foldlM Draft.add? ⟨[], []⟩
  completeFields? draft.root

end Toml

end MemPort
