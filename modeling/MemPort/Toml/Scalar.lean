import MemPort.Toml.Scanner
import MemPort.Toml.Value

/-!
# Texts and numbers

The values of the configuration language that hold no other values, but for
dates.

## Main definitions

* `Toml.text` — a text in any of the four ways of quoting.
* `Toml.integerValue`, `Toml.floating` — numbers; an integer must fit 64 bits,
  and a float must not overflow to infinity.
* `Toml.truthValue` — a truth value.

## References

`SPEC_FULL.md`, section 10.4: the configuration is a TOML document.
-/

namespace MemPort

namespace Toml

open Scanner

/-! ### Characters -/

/-- A blank within a line. -/
def isSpace (c : Char) : Bool := c == ' ' || c == '\t'

/-- A character that may stand in a comment. -/
def isCommentChar (c : Char) : Bool := c == '\t' || (0x20 ≤ c.toNat && c != '\x7f')

/-- A character that stands for itself in a text between quotation marks. -/
def isBasicChar (c : Char) : Bool := isCommentChar c && c != '\x22' && c != '\\'

/-- A character that may stand in a text between apostrophes. -/
def isLiteralChar (c : Char) : Bool := isCommentChar c && c != '\x27'

/-- A character that may stand in a key without quotes. -/
def isBareKeyChar (c : Char) : Bool := c.isAlphanum || c == '-' || c == '_'

/-- A hexadecimal digit. -/
def isHexDigit (c : Char) : Bool :=
  c.isDigit || ('a' ≤ c && c ≤ 'f') || ('A' ≤ c && c ≤ 'F')

/-- Blanks within a line. -/
def spaces : Scanner Unit := do
  let _ ← run isSpace

/-- The end of a line. -/
def newline : Scanner Unit := one '\n' <|> exactly "\r\n"

/-- A comment. -/
def comment : Scanner Unit := do
  one '#'
  let _ ← run isCommentChar

/-- Blanks, ends of lines and comments. -/
def filler : Scanner Unit := do
  let _ ← many ((do let _ ← run1 isSpace) <|> newline <|> comment)

/-! ### Texts -/

/-- The number that digits of a base stand for. -/
def digitsValue (base : Nat) (ds : List Char) : Nat :=
  ds.foldl (fun n d =>
    let value := if d.isDigit then d.toNat - '0'.toNat else d.toLower.toNat - 'a'.toNat + 10
    n * base + value) 0

/-- The character with a code of a number of hexadecimal digits. -/
def codePoint (length : Nat) : Scanner Char := do
  let n := digitsValue 16 (← times isHexDigit length)
  require (n.isValidChar)
  return Char.ofNat n

/-- The character that a backslash and what follows it stand for. -/
def escape : Scanner Char := do
  one '\\'
  match ← satisfying fun _ => true with
  | 'b' => return '\x08'
  | 't' => return '\t'
  | 'n' => return '\n'
  | 'f' => return '\x0c'
  | 'r' => return '\r'
  | '\x22' => return '\x22'
  | '\\' => return '\\'
  | 'u' => codePoint 4
  | 'U' => codePoint 8
  | _ => failure

/-- A text between quotation marks, on one line. -/
def basicText : Scanner String := do
  one '\x22'
  let parts ← many (run1 isBasicChar <|> (do return [← escape]))
  one '\x22'
  return String.ofList parts.flatten

/-- A text between apostrophes, on one line and without escapes. -/
def literalText : Scanner String := do
  one '\x27'
  let cs ← run isLiteralChar
  one '\x27'
  return String.ofList cs

/-- A backslash at the end of a line takes away all blanks and line ends behind
it. -/
def lineContinuation : Scanner Unit := do
  one '\\'
  spaces
  newline
  let _ ← many ((do let _ ← run1 isSpace) <|> newline)

/-- Marks that stand within a text because fewer than three follow each other. -/
def innerMarks (mark : Char) (isPlain : Scanner (List Char)) : Scanner (List Char) := do
  let marks ← times (· == mark) 2 <|> times (· == mark) 1
  let next ← isPlain
  return marks ++ next

/-- The end of a text over several lines: three marks, behind at most two that
belong to it. -/
def closingMarks (mark : Char) : Scanner (List Char) := do
  let marks ← run (· == mark)
  require (3 ≤ marks.length && marks.length ≤ 5)
  return marks.drop 3

/-- The inside of a text over several lines, given how it is made up between
marks. -/
def multiline (mark : Char) (plain : Scanner (List Char)) : Scanner String := do
  let _ ← times (· == mark) 3
  let _ ← opt newline
  let body ← many (plain <|> innerMarks mark plain)
  let last ← closingMarks mark
  return String.ofList (body.flatten ++ last)

/-- The end of a line within a text, which is always a single character. -/
def innerNewline : Scanner (List Char) := do
  newline
  return ['\n']

/-- A text between three quotation marks, over several lines. -/
def basicMultiline : Scanner String :=
  multiline '\x22' <|
    run1 isBasicChar <|> (do lineContinuation; return []) <|> (do return [← escape]) <|>
      innerNewline

/-- A text between three apostrophes, over several lines. -/
def literalMultiline : Scanner String :=
  multiline '\x27' (run1 isLiteralChar <|> innerNewline)

/-- A text in any way of quoting. -/
def text : Scanner String := basicMultiline <|> basicText <|> literalMultiline <|> literalText

/-! ### Numbers -/

/-- Digits, with single underscores between them. -/
def digits (p : Char → Bool) : Scanner (List Char) := do
  let first ← satisfying p
  let rest ← many (satisfying p <|> do
    one '_'
    satisfying p)
  return first :: rest

/-- A sign; the result says whether it is a minus. -/
def sign : Scanner Bool := (do one '-'; return true) <|> (do one '+'; return false) <|> return false

/-- A whole number in base ten without leading zeros, as its sign and digits. -/
def decimal : Scanner (Bool × List Char) := do
  let isNegative ← sign
  let ds ← (do
    let c ← satisfying (· == '0')
    return [c]) <|> digits Char.isDigit
  return (isNegative, ds)

/-- A whole number after the mark of its base. -/
def based (mark : String) (base : Nat) (p : Char → Bool) : Scanner Int := do
  exactly mark
  let ds ← digits p
  return digitsValue base ds

/-- A whole number in any base. -/
def wholeNumber : Scanner Int :=
  based "0x" 16 isHexDigit
    <|> based "0o" 8 (fun c => '0' ≤ c && c ≤ '7')
    <|> based "0b" 2 (fun c => c == '0' || c == '1')
    <|> (do
      let (isNegative, ds) ← decimal
      let n : Int := digitsValue 10 ds
      return if isNegative then -n else n)

/-- A whole number of 64 bits. -/
def integerValue : Scanner Toml := do
  let n ← wholeNumber
  let limit : Nat := 1 <<< 63
  require (-limit ≤ n && n < limit)
  return .integer n

/-- Whether `n · 10 ^ e` is rounded to infinity as a number of double
precision: it is at least half a unit above the greatest one. -/
def overflows (n : Nat) (e : Int) : Bool :=
  let limit : Nat := 1 <<< 1024 - 1 <<< 970
  let magnitude : Int := (Nat.toDigits 10 n).length + e
  if n = 0 || magnitude < 300 then false
  else if 400 < magnitude then true
  else limit * Nat.pow 10 (-e).toNat ≤ n * Nat.pow 10 e.toNat

/-- An exponent. -/
def exponent : Scanner Int := do
  one 'e' <|> one 'E'
  let isNegative ← sign
  let n : Int := digitsValue 10 (← digits Char.isDigit)
  return if isNegative then -n else n

/-- The digits behind a point. -/
def fraction : Scanner (List Char) := do
  one '.'
  digits Char.isDigit

/-- A number with a fraction, an exponent or both. -/
def pointNumber : Scanner Toml := do
  let (isNegative, ds) ← decimal
  let (fractionDigits, e) ← (do return ([], ← exponent)) <|> (do
    let fs ← fraction
    let e ← opt exponent
    return (fs, e.getD 0))
  let n := digitsValue 10 (ds ++ fractionDigits)
  require (isNegative || !overflows n (e - fractionDigits.length))
  return .float

/-- A number with a fraction or an exponent, infinity, or no number. -/
def floating : Scanner Toml :=
  pointNumber <|> (do
    let _ ← sign
    exactly "inf" <|> exactly "nan"
    return .float)

/-! ### Truth values -/

/-- A truth value. -/
def truthValue : Scanner Toml :=
  (do
    exactly "true"
    return .boolean true) <|> (do
    exactly "false"
    return .boolean false)

end Toml

end MemPort
