import MemPort.Toml.Value

/-!
# Reading records

A record is read from a table, field by field and whatever else is in the table,
or from a list, whose items are its fields in order.  A field that is missing
has its default.  Values are taken as they are: an integer is never read as a
text, a truth value or a float, nor the other way round.

## Main definitions

* `Toml.record?` — the fields of a record.
* `Toml.field?` — a field that may be missing.
* `Toml.word?`, `Toml.halfWord?`, `Toml.truth?`, `Toml.text?`, `Toml.list?` —
  the kinds of values.

## References

`SPEC_FULL.md`, section 10.4: a section is read field by field, and a missing
field has its default.
-/

namespace MemPort

namespace Toml

/-- The fields of a record with the given names. -/
def record? (names : List String) : Toml → Option Fields
  | .table _ fields => some fields
  | .array items => if items.length ≤ names.length then some (names.zip items) else none
  | _ => none

/-- A field of a record, or its default if it is missing. -/
def field? (fields : Fields) (key : String) (read : Toml → Option α)
    (default : α) : Option α :=
  match get? fields key with
  | none => some default
  | some v => read v

/-- A natural number below a bound. -/
def below? (bound : Nat) : Toml → Option Nat
  | .integer n => if 0 ≤ n && n < bound then some n.toNat else none
  | _ => none

/-- A natural number of 64 bits. -/
def word? : Toml → Option Nat := below? (1 <<< 64)

/-- A natural number of 32 bits. -/
def halfWord? : Toml → Option Nat := below? (1 <<< 32)

/-- A truth value. -/
def truth? : Toml → Option Bool
  | .boolean b => some b
  | _ => none

/-- A text; a date is its normal form. -/
def text? : Toml → Option String
  | .string s => some s
  | .datetime s => some s
  | _ => none

/-- A list of values of one kind. -/
def list? (read : Toml → Option α) : Toml → Option (List α)
  | .array items => items.mapM read
  | _ => none

/-- A value that is present. -/
def present? (read : Toml → Option α) (v : Toml) : Option (Option α) := (read v).map some

end Toml

end MemPort
