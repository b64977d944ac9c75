import TenantPower.Time
import TenantPower.Proofs.Text
import Mathlib.Data.Nat.Digits

/-!
# Proofs: clock times

`formatHhmm` writes a minute of the day as two zero-padded numbers of two digits, which
`parseHhmm` reads back (`parseHhmm_formatHhmm`). On a valid time `toUtcHhmmAndDayshift` is the
arithmetic of minutes: the UTC time is the local minute less the offset, modulo a day, and the
day shift is the number of days that subtraction crosses, `-1`, `0` or `1`. Going back,
`utcHhmmToLocal` returns the local time a UTC time was computed from
(`utcHhmmToLocal_toUtcHhmm`).
-/

namespace TenantPower

/-! ## Two digits -/

/-- `Nat.toDigits` of a number below ten: one digit. -/
theorem toDigits_one {n : Nat} (h : n < 10) : Nat.toDigits 10 n = [Nat.digitChar n] := by
  simp [Nat.toDigits, Nat.toDigitsCore, Nat.div_eq_of_lt h, Nat.mod_eq_of_lt h]

/-- `Nat.toDigits` of a number from ten to ninety-nine: two digits. -/
theorem toDigits_two {n : Nat} (h1 : 10 ≤ n) (h2 : n < 100) :
    Nat.toDigits 10 n = [Nat.digitChar (n / 10), Nat.digitChar (n % 10)] := by
  obtain ⟨k, rfl⟩ : ∃ k, n = k + 1 := ⟨n - 1, by omega⟩
  have h3 : (k + 1) / 10 ≠ 0 := by omega
  have h4 : (k + 1) / 10 / 10 = 0 := by omega
  have h5 : (k + 1) / 10 % 10 = (k + 1) / 10 := by omega
  obtain ⟨j, hj⟩ : ∃ j, k = j + 1 := ⟨k - 1, by omega⟩
  rw [Nat.toDigits, Nat.toDigitsCore, if_neg h3, hj, Nat.toDigitsCore]
  simp only [← hj, h4, h5, if_true]

/-- `pad2` of a number below a hundred: its two digits. -/
theorem pad2_toList {n : Nat} (h : n < 100) :
    (pad2 n).toList = [Nat.digitChar (n / 10), Nat.digitChar (n % 10)] := by
  unfold pad2
  split_ifs with h10
  · show ['0'] ++ (Nat.toDigits 10 n) = _
    rw [toDigits_one h10, Nat.div_eq_of_lt h10, Nat.mod_eq_of_lt h10]
    rfl
  · show Nat.toDigits 10 n = _
    exact toDigits_two (by omega) h

/-- A decimal digit is an ASCII digit, no whitespace, and stands for its value. -/
theorem digitChar_digit {d : Nat} (h : d < 10) :
    isAsciiDigit (Nat.digitChar d) = true ∧ isPySpace (Nat.digitChar d) = false ∧
      (Nat.digitChar d).toNat - 48 = d := by
  interval_cases d <;> exact ⟨rfl, rfl, rfl⟩

/-- `int` of two decimal digits. -/
theorem pyInt_two_digits {a b : Nat} (ha : a < 10) (hb : b < 10) :
    pyInt [Nat.digitChar a, Nat.digitChar b] = .ok ((10 * a + b : Nat) : Int) := by
  obtain ⟨ha1, ha2, ha3⟩ := digitChar_digit ha
  obtain ⟨hb1, hb2, hb3⟩ := digitChar_digit hb
  have hl : intLiteral [Nat.digitChar a, Nat.digitChar b] = some ((10 * a + b : Nat) : Int) := by
    unfold intLiteral
    rw [strip_eq_self (by simp [ha2, hb2])]
    split
    · rename_i ds h; simp at h; obtain ⟨h, -⟩ := h; rw [h] at ha1; cases ha1
    · rename_i ds h; simp at h; obtain ⟨h, -⟩ := h; rw [h] at ha1; cases ha1
    · have hu : Nat.digitChar b ≠ '_' := fun h => by rw [h] at hb1; cases hb1
      simp [readNat, ha1, hb1, readDigits, ha3, hb3, hu]
  simp [pyInt, hl]

/-- The text of `formatHhmm m`: two digits of the hour, a colon, two digits of the minute. -/
theorem formatHhmm_toList (m : Nat) (h : m < 1440) :
    (formatHhmm m).toList = [Nat.digitChar (m / 60 / 10), Nat.digitChar (m / 60 % 10), ':',
      Nat.digitChar (m % 60 / 10), Nat.digitChar (m % 60 % 10)] := by
  show (pad2 (m / 60)).toList ++ [':'] ++ (pad2 (m % 60)).toList = _
  rw [pad2_toList (by omega), pad2_toList (by omega)]
  rfl

/-! ## `HH:MM` -/

/-- `parseHhmm` reads back what `formatHhmm` writes. -/
theorem parseHhmm_formatHhmm {m : Nat} (h : m < 1440) : parseHhmm (formatHhmm m) = .ok m := by
  have hne : ∀ d, d < 10 → Nat.digitChar d ≠ ':' := fun d hd hc => by
    have := (digitChar_digit hd).1
    rw [hc] at this
    cases this
  have hsplit : (formatHhmm m).toList.splitOn ':' =
      [[Nat.digitChar (m / 60 / 10), Nat.digitChar (m / 60 % 10)],
        [Nat.digitChar (m % 60 / 10), Nat.digitChar (m % 60 % 10)]] := by
    rw [formatHhmm_toList m h]
    simp [List.splitOn, List.splitOnP_cons, hne (m / 60 / 10) (by omega), hne (m / 60 % 10) (by omega),
      hne (m % 60 / 10) (by omega), hne (m % 60 % 10) (by omega)]
  have hh : 10 * (m / 60 / 10) + m / 60 % 10 = m / 60 := by omega
  have hm : 10 * (m % 60 / 10) + m % 60 % 10 = m % 60 := by omega
  simp only [parseHhmm, hsplit, pyInt_two_digits (show m / 60 / 10 < 10 by omega)
    (show m / 60 % 10 < 10 by omega), pyInt_two_digits (show m % 60 / 10 < 10 by omega)
    (show m % 60 % 10 < 10 by omega), hh, hm, ok_bind]
  rw [if_neg (by omega), if_neg (by omega)]
  congr 1
  omega

/-! ## Moving between zones -/

/-- A valid time is a minute of the day. -/
theorem parseHhmm_lt {s : String} {t : Nat} (h : parseHhmm s = .ok t) : t < 1440 := by
  unfold parseHhmm at h
  split at h
  · obtain ⟨hh, -, h⟩ := bind_eq_ok.1 h
    obtain ⟨mm, -, h⟩ := bind_eq_ok.1 h
    split_ifs at h with h1 h2
    cases h
    omega
  · cases h
  · cases h

/-- `toUtcHhmmAndDayshift` on a valid time: the local minute less the offset, modulo a day, and
the days that subtraction crosses. -/
theorem toUtcHhmmAndDayshift_eq {s : String} {t : Nat} (h : parseHhmm s = .ok t) (tz : FixedOffset) :
    toUtcHhmmAndDayshift s tz = .ok (formatHhmm ((t - tz.minutes) % 1440).toNat, (t - tz.minutes) / 1440) := by
  simp only [toUtcHhmmAndDayshift, h, ok_bind]
  rfl

/-- The UTC date of a local time is the local date, the day before or the day after. -/
theorem dayshift_bound {t : Nat} (ht : t < 1440) (tz : FixedOffset) :
    -1 ≤ (t - tz.minutes) / 1440 ∧ (t - tz.minutes) / 1440 ≤ 1 := by
  have := tz.natAbs_lt
  omega

/-- `addMinutesHhmm` of a written minute of the day moves it round the clock. -/
theorem addMinutesHhmm_formatHhmm {m : Nat} (h : m < 1440) (k : Int) :
    addMinutesHhmm (formatHhmm m) k = .ok (formatHhmm ((m + k) % 1440).toNat) := by
  simp only [addMinutesHhmm, parseHhmm_formatHhmm h, ok_bind]
  rfl

/-! ## Back to local time -/

/-- A written time is never empty. -/
theorem formatHhmm_ne_empty {m : Nat} (h : m < 1440) : formatHhmm m ≠ "" := fun he => by
  have := congrArg String.toList he
  rw [formatHhmm_toList m h] at this
  cases this

/-- `utc_hhmm_to_local` takes the UTC time of a valid local time back to that local time, written
with two digits each for the hour and the minute. -/
theorem utcHhmmToLocal_toUtcHhmm {s : String} {t : Nat} (h : parseHhmm s = .ok t) (tz : FixedOffset) :
    ∃ u, toUtcHhmm s tz = .ok u ∧ utcHhmmToLocal u tz = .ok (formatHhmm t) := by
  have ht := parseHhmm_lt h
  have hu : ((t - tz.minutes) % 1440).toNat < 1440 := by omega
  refine ⟨_, by simp only [toUtcHhmm, h, ok_bind]; rfl, ?_⟩
  simp only [utcHhmmToLocal, formatHhmm_ne_empty hu, if_false, parseHhmm_formatHhmm hu, ok_bind]
  congr 2
  omega

/-- 06:00 in Bogota comes back from UTC as 06:00. -/
theorem utcHhmmToLocal_toUtcHhmm_bogota :
    ∃ u, toUtcHhmm "6:00" tzLocal = .ok u ∧ utcHhmmToLocal u tzLocal = .ok "06:00" :=
  utcHhmmToLocal_toUtcHhmm (show parseHhmm "6:00" = .ok 360 from rfl) tzLocal

end TenantPower
