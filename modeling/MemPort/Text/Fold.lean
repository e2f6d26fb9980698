/-!
# Folded words

A word of a configuration is compared without regard to the blanks around it and
to the case of its ASCII letters.  Blanks are the characters with the Unicode
property `White_Space`; letters outside ASCII keep their case.

## Main definitions

* `isBlank` — the property `White_Space`.
* `foldWord` — a word without surrounding blanks and with ASCII letters in
  lower case.

## References

`SPEC_FULL.md`, section 10.4: the settings are words of a configuration.
-/

namespace MemPort

/-- The property `White_Space` of a character. -/
def isBlank (c : Char) : Bool :=
  let n := c.toNat
  (9 ≤ n && n ≤ 13) || n == 0x20 || n == 0x85 || n == 0xA0 || n == 0x1680 ||
    (0x2000 ≤ n && n ≤ 0x200A) || n == 0x2028 || n == 0x2029 || n == 0x202F || n == 0x205F ||
    n == 0x3000

/-- A list without the blanks at its two ends. -/
def trimBlanks (cs : List Char) : List Char :=
  ((cs.dropWhile isBlank).reverse.dropWhile isBlank).reverse

/-- A word without surrounding blanks and with ASCII letters in lower case. -/
def foldWord (word : String) : String :=
  String.ofList ((trimBlanks word.toList).map Char.toLower)

end MemPort
