/-!
# Lines of printed texts

A text that is printed is followed by the end of its line, and it may hold ends
of lines itself.  A carriage return right before the end of a line belongs to
that end.

## Main definitions

* `Lines.split` — the lines of the characters of a printed text.
* `Lines.ofText` — the lines of a printed text.

## Main results

* `Lines.split_of_not_mem` — a text without an end of line is a single line.
* `Lines.split_append` — an end of line splits a text into the lines before
  and behind it.

## References

`SPEC_FULL.md`, section 10.3: progress lines of the traffic.
-/

namespace MemPort

namespace Lines

/-- A line without the carriage return at its end. -/
def dropReturn (line : List Char) : List Char :=
  if line.getLast? = some '\r' then line.dropLast else line

/-- The lines of a printed text, given the beginning of the first, newest
character first. -/
def splitFrom (line : List Char) : List Char → List (List Char)
  | [] => [dropReturn line.reverse]
  | '\n' :: rest => dropReturn line.reverse :: splitFrom [] rest
  | c :: rest => splitFrom (c :: line) rest

/-- The lines of the characters of a printed text. -/
def split (text : List Char) : List (List Char) := splitFrom [] text

/-- The lines of a printed text. -/
def ofText (text : String) : List String := (split text.toList).map String.ofList

theorem splitFrom_append {before : List Char} (h : '\n' ∉ before) (line rest : List Char) :
    splitFrom line (before ++ '\n' :: rest) =
      dropReturn (line.reverse ++ before) :: splitFrom [] rest := by
  induction before generalizing line with
  | nil => simp [splitFrom]
  | cons c before ih =>
    have hc : c ≠ '\n' := fun e => h (e ▸ List.mem_cons_self)
    have hbefore : '\n' ∉ before := fun m => h (List.mem_cons_of_mem _ m)
    simp [splitFrom, ih hbefore]

theorem splitFrom_of_not_mem {text : List Char} (h : '\n' ∉ text) (line : List Char) :
    splitFrom line text = [dropReturn (line.reverse ++ text)] := by
  induction text generalizing line with
  | nil => simp [splitFrom]
  | cons c text ih =>
    have hc : c ≠ '\n' := fun e => h (e ▸ List.mem_cons_self)
    have htext : '\n' ∉ text := fun m => h (List.mem_cons_of_mem _ m)
    simp [splitFrom, ih htext]

/-- **A text without an end of line is a single line.** -/
theorem split_of_not_mem {text : List Char} (h : '\n' ∉ text) : split text = [dropReturn text] :=
  splitFrom_of_not_mem h []

/-- **An end of line splits a text** into the line before it and the lines
behind it. -/
theorem split_append {before : List Char} (h : '\n' ∉ before) (rest : List Char) :
    split (before ++ '\n' :: rest) = dropReturn before :: split rest :=
  splitFrom_append h [] rest

end Lines

end MemPort
