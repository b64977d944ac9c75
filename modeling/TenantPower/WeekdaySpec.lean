import TenantPower.Weekdays

/-!
# What a weekday spec means

The language a user writes weekdays in, stated without the parser: comma-separated items, each a
day or a range `x-y` of two days, where a day is a digit `0`–`6` or a Spanish day name in any
case, with or without accents, and a range runs `x, x + 1, …, y` round the week. Blanks are
ignored and a spec without items is every day. `weekdaySpecDays` gives the days a spec denotes,
in the order written; the parser and the expander are proved against it.
-/

namespace TenantPower

/-- The seven days by name, without accents, Sunday first. -/
def dayNames : List (String × Nat) :=
  [("domingo", 0), ("lunes", 1), ("martes", 2), ("miercoles", 3), ("jueves", 4), ("viernes", 5),
    ("sabado", 6)]

/-- The day a name stands for: its lowercase, unaccented form is one of `dayNames`. -/
def nameDay (w : List Char) : Option Nat :=
  dayNames.lookup (String.mk (stripAccents (lower w)))

/-- A digit `0`–`6` (48–54). -/
def isDayDigit (c : Char) : Bool := 48 ≤ c.toNat && c.toNat ≤ 54

/-- The day a word stands for: a digit `0`–`6`, or a day name. -/
def atomDay : List Char → Option Nat
  | [c] => if isDayDigit c then some (c.toNat - 48) else nameDay [c]
  | w => nameDay w

/-- `x, x + 1, …, y` round the week. -/
def circularRange (x y : Nat) : List Nat :=
  (List.range ((y + 7 - x) % 7 + 1)).map fun i => (x + i) % 7

/-- The days of one item: a day, or a range of two. -/
def itemDays (item : List Char) : Option (List Nat) :=
  match item.splitOn '-' with
  | [x] => (atomDay x).map fun d => [d]
  | [x, y] => do
    let a ← atomDay x
    let b ← atomDay y
    pure (circularRange a b)
  | _ => none

/-- The days of a list of items, in order. -/
def itemsDays : List (List Char) → Option (List Nat)
  | [] => some []
  | item :: items => do
    let a ← itemDays item
    let b ← itemsDays items
    pure (a ++ b)

/-- The items of a spec: the non-empty comma-separated pieces once the blanks are dropped. -/
def specItems (s : String) : List (List Char) :=
  ((s.toList.filter (· != ' ')).splitOn ',').filter (· != [])

/-- The days a weekday spec denotes, or `none` when it is not a spec. Blanks are spaces; other
whitespace is not part of the language. -/
def weekdaySpecDays (s : String) : Option (List Nat) :=
  if s.toList.any fun c => isPySpace c && c != ' ' then none
  else if specItems s = [] then some (List.range 7)
  else itemsDays (specItems s)

/-! ## Shapes of specs -/

/-- An item of the canonical numeric form kube-green reads: `d` or `d-e`, digits `0`–`6`. -/
def isKubeItem : List Char → Bool
  | [d] => isDayDigit d
  | [d, '-', e] => isDayDigit d && isDayDigit e
  | _ => false

/-- A non-empty canonical numeric spec: comma-separated `isKubeItem`s. -/
def isCanonicalKube (k : String) : Bool := (k.toList.splitOn ',').all isKubeItem

/-- An item of day names: a name, or a range of two names. -/
def isNameItem (item : List Char) : Bool :=
  match item.splitOn '-' with
  | [x] => (nameDay x).isSome
  | [x, y] => (nameDay x).isSome && (nameDay y).isSome
  | _ => false

/-- A spec written with day names only, at least one of them. -/
def isNameSpec (s : String) : Bool :=
  !(s.toList.any fun c => isPySpace c && c != ' ') && specItems s != [] &&
    (specItems s).all isNameItem

end TenantPower
