import TenantPower.Text

/-!
# Clock times

The time helpers of `tenant_power.py` read and write `HH:MM` strings and move them between the
local zone and UTC on the date of the run. A zone enters as its UTC offset on that date: the tool
reads it from the tz database, which is outside the model, and for a zone without daylight
saving time, such as `America/Bogota`, the offset does not depend on the date.
-/

namespace TenantPower

/-- A fixed UTC offset in minutes, local time minus UTC. Python bounds `utcoffset()` strictly
within a day, and so does this. -/
structure FixedOffset where
  minutes : Int
  natAbs_lt : minutes.natAbs < 1440

/-- `TZ_LOCAL = "America/Bogota"`: Colombia keeps UTC−5 all year. -/
def tzLocal : FixedOffset := ⟨-300, by decide⟩

/-- `hh, mm = map(int, hhmm.split(":"))` followed by `time(hh, mm)`: the minute of the day of a
valid `HH:MM`. -/
def parseHhmm (s : String) : Except String Nat :=
  match s.toList.splitOn ':' with
  | [h, m] => do
    let hh ← pyInt h
    let mm ← pyInt m
    if hh < 0 ∨ 23 < hh then .error "hour must be in 0..23"
    else if mm < 0 ∨ 59 < mm then .error "minute must be in 0..59"
    else pure (hh * 60 + mm).toNat
  | [_] => .error "not enough values to unpack (expected 2, got 1)"
  | _ => .error "too many values to unpack (expected 2)"

/-- Two digits, zero-padded, as `%H` and `%M` write them. -/
def pad2 (n : Nat) : String := if n < 10 then "0" ++ toString n else toString n

/-- `strftime("%H:%M")` of the minute `m` of a day. -/
def formatHhmm (m : Nat) : String := pad2 (m / 60) ++ ":" ++ pad2 (m % 60)

/-- `add_minutes_hhmm`: the time `minutes` later on a 24-hour clock; a change of day is not
reported. -/
def addMinutesHhmm (hhmmUtc : String) (minutes : Int) : Except String String := do
  let t ← parseHhmm hhmmUtc
  pure (formatHhmm ((t + minutes) % 1440).toNat)

/-- `to_utc_hhmm_and_dayshift`: the UTC time of a local `HH:MM`, and by how many days the UTC
date is ahead of the local one. -/
def toUtcHhmmAndDayshift (localHhmm : String) (tz : FixedOffset := tzLocal) :
    Except String (String × Int) := do
  let t ← parseHhmm localHhmm
  let x : Int := t - tz.minutes
  pure (formatHhmm (x % 1440).toNat, x / 1440)

/-- `to_utc_hhmm`: the UTC time of a local `HH:MM`. -/
def toUtcHhmm (localHhmm : String) (tz : FixedOffset := tzLocal) : Except String String := do
  let t ← parseHhmm localHhmm
  pure (formatHhmm ((t - tz.minutes) % 1440).toNat)

/-- `utc_hhmm_to_local`, used only for display: the local time of a UTC `HH:MM`. -/
def utcHhmmToLocal (hhmmUtc : String) (tz : FixedOffset := tzLocal) : Except String String :=
  if hhmmUtc = "" then pure "" else do
    let t ← parseHhmm hhmmUtc
    pure (formatHhmm ((t + tz.minutes) % 1440).toNat)

end TenantPower
