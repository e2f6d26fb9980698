/-!
# Configuration values

The values of the configuration language TOML, and how a document grows a table
at a time.

A table remembers how it came about, because that decides what may still be
added to it.  A header opens a table once, and makes the tables on the way to it
if they are missing; those may still be opened by a header of their own.  A
dotted key makes tables that only dotted keys of the same place may add to.  An
inline table is complete as it stands.

## Main definitions

* `Toml`, `TableKind` — a value, and how a table came about.
* `Toml.Fields` — the fields of a table; `Toml.alter` changes the table at the
  end of a path.
* `Toml.openTable?`, `Toml.openArrayTable?`, `Toml.assign?` — what the lines
  of a document do.

## References

`SPEC_FULL.md`, section 10.4: the configuration is a TOML document.
-/

namespace MemPort

/-- How a table came about. -/
inductive TableKind where
  /-- Written between braces. -/
  | inlined
  /-- Opened by a header, or the document itself. -/
  | opened
  /-- On the way to a table that a header opened. -/
  | implied
  /-- On the way of a dotted key. -/
  | dotted
  deriving DecidableEq, Repr, Inhabited

/-- A value of a configuration. -/
inductive Toml where
  /-- A text. -/
  | string (text : String)
  /-- A whole number. -/
  | integer (n : Int)
  /-- A number with a fraction or an exponent.  No setting takes one, so its
  value is not kept. -/
  | float
  /-- A truth value. -/
  | boolean (b : Bool)
  /-- A date, a time or both, in its normal form. -/
  | datetime (text : String)
  /-- A list of values. -/
  | array (items : List Toml)
  /-- The tables that headers in double brackets opened under one name, the
  newest first.  They only occur in a document in the making, and are a list
  once it is complete. -/
  | tables (items : List (List (String × Toml)))
  /-- A table. -/
  | table (kind : TableKind) (fields : List (String × Toml))
  deriving Repr, Inhabited

namespace Toml

/-- The fields of a table, in the order in which they were written. -/
abbrev Fields := List (String × Toml)

/-- The value of a field. -/
def get? (fields : Fields) (key : String) : Option Toml := fields.lookup key

/-- Give a field a value, over the one it has. -/
def put (key : String) (value : Toml) : Fields → Fields
  | [] => [(key, value)]
  | f :: rest => if f.1 = key then (key, value) :: rest else f :: put key value rest

/-- Change the table at the end of a path that starts in a table of the given
kind.  Missing tables on the way are made, as dotted ones if the path is that of
a dotted key.  A path leads through the newest of several tables of one name.
It never leads through a value or an inline table, and a dotted one not through
a table that a header opened. -/
def alter (isDotted : Bool) (change : TableKind → Fields → Option Fields) :
    List String → TableKind → Fields → Option Fields
  | [], kind, fields => change kind fields
  | key :: path, _, fields =>
      match get? fields key with
      | none =>
          let kind : TableKind := if isDotted then .dotted else .implied
          (alter isDotted change path kind []).map fun inner => put key (.table kind inner) fields
      | some (.table kind inner) =>
          if kind = .inlined || (isDotted && kind = .opened) then none
          else
            (alter isDotted change path kind inner).map fun inner =>
              put key (.table kind inner) fields
      | some (.tables (newest :: older)) =>
          (alter isDotted change path .opened newest).map fun newest =>
            put key (.tables (newest :: older)) fields
      | some _ => none

/-- Open the table under a name, once.  A table that was implied moves behind
the other fields. -/
def openHere (key : String) (fields : Fields) : Option Fields :=
  match get? fields key with
  | none => some (put key (.table .opened []) fields)
  | some (.table .implied inner) =>
      some (fields.filter (fun f => f.1 != key) ++ [(key, .table .opened inner)])
  | some _ => none

/-- Open one more table under a name. -/
def openMoreHere (key : String) (fields : Fields) : Option Fields :=
  match get? fields key with
  | none => some (put key (.tables [[]]) fields)
  | some (.tables items) => some (put key (.tables ([] :: items)) fields)
  | some _ => none

/-- Open the table of a header. -/
def openTable? (path : List String) (key : String) (root : Fields) : Option Fields :=
  alter false (fun _ fields => openHere key fields) path .opened root

/-- Open the table of a header in double brackets. -/
def openArrayTable? (path : List String) (key : String) (root : Fields) : Option Fields :=
  alter false (fun _ fields => openMoreHere key fields) path .opened root

/-- Give a new field a value.  A dotted key only adds to tables that dotted keys
made. -/
def assignHere (path : List String) (key : String) (value : Toml) (kind : TableKind)
    (fields : Fields) : Option Fields :=
  if (kind == .dotted) == path.isEmpty then none
  else if (get? fields key).isSome then none
  else some (put key value fields)

/-- Give the field at the end of a dotted key a value, in a table of the given
kind. -/
def assign? (path : List String) (key : String) (value : Toml) (kind : TableKind)
    (fields : Fields) : Option Fields :=
  alter true (assignHere path key value) path kind fields

end Toml

end MemPort
