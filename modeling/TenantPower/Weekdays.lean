import TenantPower.Text

/-!
# Weekday specs

The weekday helpers of `tenant_power.py`. `humanWeekdaysToKube` turns a user's spec (Spanish day
names, ranges of them, or digits) into the numeric form kube-green reads, `kubeWeekdaysToHuman`
goes back for display, `expandWeekdaysStr` reads a spec as a list of day numbers and
`shiftWeekdaysStr` moves every day of a spec by a number of days, modulo a week.

Day numbers are Python `int`s: `0` is Sunday, `6` Saturday, and nothing stops a numeric spec
from naming `9`. The source's "remove duplicates preserving order" loop, which appears four times,
is `dedup`; its range code, which appears three times, is `dayRange`.
-/

namespace TenantPower

/-- `DAYS_ES`, in the order of the source's dictionary literal. -/
def daysEs : List (String × Int) :=
  [("domingo", 0), ("lunes", 1), ("martes", 2), ("miercoles", 3), ("miércoles", 3),
    ("jueves", 4), ("viernes", 5), ("sabado", 6), ("sábado", 6)]

/-- `DAYS_NUM_TO_ES = {v: k for k, v in DAYS_ES.items()}`: a later key overwrites an earlier
one with the same day, so the accented spellings win. -/
def daysNumToEs (n : Int) : Option String :=
  (daysEs.reverse.find? fun e => e.2 == n).map Prod.fst

/-- `_strip_accents`: NFD decomposition, then every combining mark dropped. -/
def stripAccents (s : List Char) : List Char :=
  (s.filter fun c => !isCombiningMark c).map baseLetter

/-- The source's loop that removes duplicates preserving order: `seen` holds the values
already kept, and a value is kept at its first occurrence. -/
def dedupFrom {α : Type} [DecidableEq α] (seen : List α) : List α → List α
  | [] => []
  | n :: ns => if n ∈ seen then dedupFrom seen ns else n :: dedupFrom (n :: seen) ns

/-- The loop started with `seen = set()`. -/
def dedup {α : Type} [DecidableEq α] (l : List α) : List α := dedupFrom [] l

/-- `range(a, b)`. -/
def pyRange (a b : Int) : List Int := (List.range (b - a).toNat).map fun i : Nat => a + i

/-- The days of a range `a-b`: `range(a, b + 1)`, or when `b < a` the circular
`range(a, 7) + range(0, b + 1)`. -/
def dayRange (a b : Int) : List Int :=
  if a ≤ b then pyRange a (b + 1) else pyRange a 7 ++ pyRange 0 (b + 1)

/-- `for x in xs: tokens.extend(f(x))`, stopped by the first exception. -/
def extendAll (f : List Char → Except String (List Int)) : List (List Char) → Except String (List Int)
  | [] => .ok []
  | x :: xs => do
    let a ← f x
    let b ← extendAll f xs
    pure (a ++ b)

/-! ## `human_weekdays_to_kube` -/

/-- One comma-separated part of a spelled-out spec: a day name, or a range `a-b` of two. -/
def partDays (p : List Char) : Except String (List Int) :=
  if '-' ∈ p then
    match daysEs.lookup (String.mk (splitOnce '-' p).1),
        daysEs.lookup (String.mk (splitOnce '-' p).2) with
    | some start, some stop => .ok (dayRange start stop)
    | _, _ => .error ("Dia no reconocido en rango: '" ++ String.mk p ++ "'")
  else
    match daysEs.lookup (String.mk p) with
    | some n => .ok [n]
    | none => .error ("Dia no reconocido: '" ++ String.mk p ++ "'")

/-- `human_weekdays_to_kube`: a blank spec is every day, a numeric spec passes through without
its spaces, and anything else is read as day names, lowercased and without accents. -/
def humanWeekdaysToKube (s : String) : Except String String :=
  let raw := strip s.toList
  if raw = [] then .ok "0-6"
  else if numericFullmatch raw then .ok (String.mk (raw.filter (· != ' ')))
  else do
    let txt := stripAccents ((lower raw).filter (· != ' '))
    let nums ← extendAll partDays ((txt.splitOn ',').filter (· != []))
    pure (joinInts (dedup nums))

/-! ## Numeric specs -/

/-- One chunk of a numeric spec: `int(chunk)`, or the range `int(a)-int(b)`. -/
def chunkDays (chunk : List Char) : Except String (List Int) :=
  if '-' ∈ chunk then do
    let a ← pyInt (splitOnce '-' chunk).1
    let b ← pyInt (splitOnce '-' chunk).2
    pure (dayRange a b)
  else do
    let n ← pyInt chunk
    pure [n]

/-- `DAYS_NUM_TO_ES.get(n, str(n))`: the Spanish name of a day, or its number. -/
def dayLabel (n : Int) : List Char := ((daysNumToEs n).getD (toString n)).toList

/-- `kube_weekdays_to_human`: the days of a numeric spec, each once, by their Spanish names; a
day without a name is shown as its number, and a blank spec as `todos`. -/
def kubeWeekdaysToHuman (s : String) : Except String String :=
  let raw := strip s.toList
  if raw = [] then .ok "todos" else do
    let tokens ← extendAll (fun chunk => chunkDays (strip chunk)) (raw.splitOn ',')
    pure (String.mk (joinWith ',' ((dedup tokens).map dayLabel)))

/-- `_expand_weekdays_str`: the days of a spec, each once, in order of first occurrence. An empty
string is every day; a spec with letters is first read by `humanWeekdaysToKube`. -/
def expandWeekdaysStr (raw : String) : Except String (List Int) :=
  if raw = "" then .ok ((List.range 7).map Int.ofNat) else do
    let s := strip raw.toList
    let s ← if hasSpanishLetter s then (humanWeekdaysToKube (String.mk s)).map String.toList
      else pure s
    let tokens ← extendAll (fun chunk => if strip chunk = [] then pure [] else
      chunkDays (strip chunk)) (s.splitOn ',')
    pure (dedup tokens)

/-- `_shift_weekdays_str`: every day of the spec moved by `shift` days, modulo a week, each
once, as `n,n,n`. -/
def shiftWeekdaysStr (raw : String) (shift : Int) : Except String String := do
  let shift := shift % 7
  let lst ← expandWeekdaysStr raw
  pure (joinInts (dedup (lst.map fun n => (n + shift) % 7)))

end TenantPower
