import Mathlib.Data.List.Basic
import Mathlib.Data.List.DropRight

/-!
# Python `str` builtins

`tenant_power.py` takes its inputs apart with a few `str` methods (`strip`, `lower`, `split`,
`replace`, `join`), the builtins `int` and `str`, and two regular expressions. Each is given here
as a function on the code points of a string, which is what a Python `str` is.

Unicode tables enter in three places. `isPySpace` is the whole of `str.isspace`. `lowerChar`,
`isCombiningMark` and `baseLetter` are exact on the Latin-1 letters and the combining diacritical
marks and leave every other code point as it is. The decimal digits of `int()` and `\d` are the
ASCII ones.
-/

namespace TenantPower

/-- `str.isspace`: the whitespace that `str.strip()`, `int()` and the regex class `\s` skip. -/
def isPySpace (c : Char) : Bool :=
  let n := c.toNat
  (9 ≤ n && n ≤ 13) || (28 ≤ n && n ≤ 32) || n == 133 || n == 160 || n == 5760 ||
    (8192 ≤ n && n ≤ 8202) || n == 8232 || n == 8233 || n == 8239 || n == 8287 || n == 12288

/-- `str.strip()`. -/
def strip (s : List Char) : List Char :=
  (s.dropWhile isPySpace).rdropWhile isPySpace

/-- `str.lower()` on one code point: `A`–`Z` (65–90) and `À`–`Þ` (192–222) except `×` (215)
move 32 places down. -/
def lowerChar (c : Char) : Char :=
  if (65 ≤ c.toNat ∧ c.toNat ≤ 90) ∨ (192 ≤ c.toNat ∧ c.toNat ≤ 222 ∧ c.toNat ≠ 215) then
    Char.ofNat (c.toNat + 32)
  else c

/-- `str.lower()`. -/
def lower (s : List Char) : List Char := s.map lowerChar

/-- A combining mark (category `Mn`) of the combining diacritical marks block. -/
def isCombiningMark (c : Char) : Bool := 0x300 ≤ c.toNat && c.toNat ≤ 0x36F

/-- What NFD leaves of the letters `U+00C0` to `U+00FF` once their diacritic is split off; a
letter without a canonical decomposition stands for itself. -/
def latin1Bases : List Char :=
  "AAAAAAÆCEEEEIIIIÐNOOOOO×ØUUUUYÞßaaaaaaæceeeeiiiiðnooooo÷øuuuuyþy".toList

/-- The base letter of a code point under NFD, its combining marks dropped. -/
def baseLetter (c : Char) : Char :=
  if 0xC0 ≤ c.toNat then latin1Bases.getD (c.toNat - 0xC0) c else c

/-- An ASCII digit `0`–`9` (48–57). -/
def isAsciiDigit (c : Char) : Bool := 48 ≤ c.toNat && c.toNat ≤ 57

/-- `int(s)` reads its digits after the first one: each may follow one underscore. -/
def readDigits : List Char → Nat → Option Nat
  | [], n => some n
  | '_' :: c :: cs, n => if isAsciiDigit c then readDigits cs (10 * n + (c.toNat - 48)) else none
  | c :: cs, n => if isAsciiDigit c then readDigits cs (10 * n + (c.toNat - 48)) else none

/-- The unsigned part of an integer literal: a digit, then `readDigits`. -/
def readNat : List Char → Option Nat
  | c :: cs => if isAsciiDigit c then readDigits cs (c.toNat - 48) else none
  | [] => none

/-- The value of `int(s)` in base 10: whitespace around, an optional sign, then digits. -/
def intLiteral (s : List Char) : Option Int :=
  match strip s with
  | '-' :: ds => (readNat ds).map fun n => -(n : Int)
  | '+' :: ds => (readNat ds).map Int.ofNat
  | ds => (readNat ds).map Int.ofNat

/-- `int(s)`, which raises `ValueError` on a malformed literal. -/
def pyInt (s : List Char) : Except String Int :=
  match intLiteral s with
  | some n => .ok n
  | none => .error ("invalid literal for int() with base 10: '" ++ String.mk s ++ "'")

/-- `a, b = s.split(sep, 1)` on a string that contains `sep`: the text before its first
occurrence and the text after it. -/
def splitOnce (sep : Char) (s : List Char) : List Char × List Char :=
  (s.takeWhile (· != sep), (s.dropWhile (· != sep)).drop 1)

/-- `sep.join(parts)`. -/
def joinWith (sep : Char) (parts : List (List Char)) : List Char := [sep].intercalate parts

/-- `",".join(str(n) for n in ns)`. -/
def joinInts (ns : List Int) : String :=
  String.mk (joinWith ',' (ns.map fun n => (toString n).toList))

/-- The pattern `\d(?:[-,]\d)*`, on a text whose whitespace is already dropped. -/
def digitChain : List Char → Bool
  | [d] => isAsciiDigit d
  | d :: s :: rest => isAsciiDigit d && (s == '-' || s == ',') && digitChain rest
  | [] => false

/-- `re.fullmatch(r"\s*\d(?:\s*[-,]\s*\d)*\s*", s)`. Whitespace may stand between any two tokens
of the pattern, and every token is one character, so `s` matches when the rest of it, once its
whitespace is dropped, matches `\d(?:[-,]\d)*`. -/
def numericFullmatch (s : List Char) : Bool :=
  digitChain (s.filter fun c => !isPySpace c)

/-- The regex class `[A-Za-zÁÉÍÓÚáéíóúÑñ]`. -/
def isSpanishLetter (c : Char) : Bool :=
  (65 ≤ c.toNat && c.toNat ≤ 90) || (97 ≤ c.toNat && c.toNat ≤ 122) ||
    "ÁÉÍÓÚáéíóúÑñ".toList.contains c

/-- `re.search(r"[A-Za-zÁÉÍÓÚáéíóúÑñ]", s)`. -/
def hasSpanishLetter (s : List Char) : Bool := s.any isSpanishLetter

/-- `re.split(r"[,\s]+", s)`, up to empty pieces: the pieces between commas and whitespace.
`re.split` merges a run of separators into one cut where this splits at each of them; the
callers skip empty pieces, so they see the same non-empty pieces in the same order. -/
def splitCommaSpace (s : List Char) : List (List Char) :=
  s.splitOnP fun c => c == ',' || isPySpace c

end TenantPower
