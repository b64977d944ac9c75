import TenantPower.Proofs.Assembler

/-!
# Proofs: the triggers of a run

What a run of `makeAllObjectsForTenant` schedules, stated on the weekly clock of `Schedule`. On
specs of the language that the parser accepts and valid times, the sleep triggers of the run are
the UTC instants of the local off time on the sleep days, and the triggers of the PgCluster and
HDFS wake object are those of the local on time on the wake days
(`makeAllObjectsForTenant_utc_triggers`): the day shift of the time conversion, the shift of the
weekday spec modulo 7 and the parser agree.

The staggered wake-ups keep the weekday of the on time and move its time round the clock of one
day (`makeAllObjectsForTenant_wake_triggers`). They are the weekly instants 5 and 7 minutes later
when they stay in the UTC day of the on time (`makeAllObjectsForTenant_staggered_wake`), and not
when they cross midnight (`makeAllObjectsForTenant_stagger_wraps`).
-/

namespace TenantPower


/-! ## Weekly instants -/

/-- The trigger of the UTC instant of a local instant: the weekday moved by the day shift of the
time, and the UTC time of day. -/
theorem triggerAt_utcWeekMinute (tz : FixedOffset) (d : Int) (t : Nat) :
    triggerAt (utcWeekMinute tz d t) =
      ((d + (t - tz.minutes) / 1440 % 7) % 7, formatHhmm ((t - tz.minutes) % 1440).toNat) := by
  unfold triggerAt utcWeekMinute weekMinutes
  refine Prod.ext ?_ (congrArg (fun x : Int => formatHhmm x.toNat) ?_) <;> dsimp only <;> omega

/-- The days of a spec, each once, moved by `k` days round the week. -/
theorem mem_shifted_days {D : List Nat} {k w : Int} :
    w ∈ dedup ((dedup (D.map Int.ofNat)).map fun n => (n + k % 7) % 7) ↔
      ∃ d ∈ D, w = (d + k % 7) % 7 := by
  simp only [mem_dedup, List.mem_map]
  constructor
  · rintro ⟨n, ⟨d, hd, rfl⟩, rfl⟩
    exact ⟨d, hd, rfl⟩
  · rintro ⟨d, hd, rfl⟩
    exact ⟨d, ⟨d, hd, rfl⟩, rfl⟩

/-- The triggers at time `time` of the days `f d`, `d ∈ D`. -/
theorem exists_days_iff {D : List Nat} {f : Nat → Int} {time : String} {p : Int × String} :
    (∃ w, (∃ d ∈ D, w = f d) ∧ p = (w, time)) ↔ ∃ d ∈ D, p = (f d, time) := by
  constructor
  · rintro ⟨_, ⟨d, hd, rfl⟩, rfl⟩
    exact ⟨d, hd, rfl⟩
  · rintro ⟨d, hd, rfl⟩
    exact ⟨_, ⟨d, hd, rfl⟩, rfl⟩

/-- What a run computes before it builds objects, on specs of the language that the parser
accepts and valid times: the specs it reads, the UTC times and day shifts, the shifted specs,
written as the days they expand to. -/
theorem makeAllObjectsForTenant_inputs {offLocal onLocal weekdays : String}
    {sleepdays wakedays : Option String} {tz : FixedOffset} {tOff tOn : Nat} {Ds Dw : List Nat}
    (hoff : parseHhmm offLocal = .ok tOff) (hon : parseHhmm onLocal = .ok tOn)
    (hw : ∃ r, humanWeekdaysToKube weekdays = .ok r)
    (hDs : weekdaySpecDays (sideSpec sleepdays weekdays) = some Ds)
    (hs : ∃ r, humanWeekdaysToKube (sideSpec sleepdays weekdays) = .ok r)
    (hDw : weekdaySpecDays (sideSpec wakedays weekdays) = some Dw)
    (hwk : ∃ r, humanWeekdaysToKube (sideSpec wakedays weekdays) = .ok r) :
    ∃ rS rW wdS wdW A B, localWeekdays weekdays sleepdays wakedays = .ok (rS, rW) ∧
      toUtcHhmmAndDayshift offLocal tz =
        .ok (formatHhmm ((tOff - tz.minutes) % 1440).toNat, (tOff - tz.minutes) / 1440) ∧
      toUtcHhmmAndDayshift onLocal tz =
        .ok (formatHhmm ((tOn - tz.minutes) % 1440).toNat, (tOn - tz.minutes) / 1440) ∧
      shiftWeekdaysStr rS ((tOff - tz.minutes) / 1440) = .ok wdS ∧
      shiftWeekdaysStr rW ((tOn - tz.minutes) / 1440) = .ok wdW ∧
      addMinutesHhmm (formatHhmm ((tOn - tz.minutes) % 1440).toNat) 5 =
        .ok (formatHhmm ((((tOn - tz.minutes) % 1440).toNat + 5 : Int) % 1440).toNat) ∧
      addMinutesHhmm (formatHhmm ((tOn - tz.minutes) % 1440).toNat) 7 =
        .ok (formatHhmm ((((tOn - tz.minutes) % 1440).toNat + 7 : Int) % 1440).toNat) ∧
      expandWeekdaysStr wdS = .ok A ∧ expandWeekdaysStr wdW = .ok B ∧
      (∀ w, w ∈ A ↔ ∃ d ∈ Ds, w = (d + (tOff - tz.minutes) / 1440 % 7) % 7) ∧
      (∀ w, w ∈ B ↔ ∃ d ∈ Dw, w = (d + (tOn - tz.minutes) / 1440 % 7) % 7) ∧
      wdS = joinInts A ∧ wdW = joinInts B := by
  obtain ⟨rd, hrd⟩ := hw
  obtain ⟨rS, hrS⟩ := hs
  obtain ⟨rW, hrW⟩ := hwk
  have hLS := expandWeekdaysStr_humanWeekdaysToKube hDs hrS
  have hLW := expandWeekdaysStr_humanWeekdaysToKube hDw hrW
  have hSne : dedup (Ds.map Int.ofNat) ≠ [] :=
    dedup_ne_nil (by simpa using (weekdaySpecDays_spec hDs).1)
  have hWne : dedup (Dw.map Int.ofNat) ≠ [] :=
    dedup_ne_nil (by simpa using (weekdaySpecDays_spec hDw).1)
  have hmin : ((tOn - tz.minutes) % 1440).toNat < 1440 := by omega
  exact ⟨rS, rW, _, _, _, _, localWeekdays_eq hrd hrS hrW, toUtcHhmmAndDayshift_eq hoff tz,
    toUtcHhmmAndDayshift_eq hon tz, shiftWeekdaysStr_eq hLS _, shiftWeekdaysStr_eq hLW _,
    addMinutesHhmm_formatHhmm hmin 5, addMinutesHhmm_formatHhmm hmin 7,
    expandWeekdaysStr_shifted hSne _, expandWeekdaysStr_shifted hWne _, fun _ => mem_shifted_days,
    fun _ => mem_shifted_days, rfl, rfl⟩

/-- A run on specs of the language that the parser accepts, with valid times: it succeeds, its
objects are those of its converted times and shifted specs, and the shifted specs expand to the
days of the specs moved by the day shifts. -/
theorem makeAllObjectsForTenant_lang (tenant : String) (ns : Option String)
    {offLocal onLocal weekdays : String} {sleepdays wakedays : Option String} {tz : FixedOffset} {tOff tOn : Nat} {Ds Dw : List Nat}
    (hoff : parseHhmm offLocal = .ok tOff) (hon : parseHhmm onLocal = .ok tOn)
    (hw : ∃ r, humanWeekdaysToKube weekdays = .ok r)
    (hDs : weekdaySpecDays (sideSpec sleepdays weekdays) = some Ds)
    (hs : ∃ r, humanWeekdaysToKube (sideSpec sleepdays weekdays) = .ok r)
    (hDw : weekdaySpecDays (sideSpec wakedays weekdays) = some Dw)
    (hwk : ∃ r, humanWeekdaysToKube (sideSpec wakedays weekdays) = .ok r) :
    ∃ objs wdS wdW A B,
      makeAllObjectsForTenant tenant offLocal onLocal weekdays sleepdays wakedays ns tz = .ok objs ∧
      expandWeekdaysStr wdS = .ok A ∧ expandWeekdaysStr wdW = .ok B ∧
      (∀ w, w ∈ A ↔ ∃ d ∈ Ds, w = (d + (tOff - tz.minutes) / 1440 % 7) % 7) ∧
      (∀ w, w ∈ B ↔ ∃ d ∈ Dw, w = (d + (tOn - tz.minutes) / 1440 % 7) % 7) ∧
      (∀ o ∈ objs, RunObject tenant (formatHhmm ((tOff - tz.minutes) % 1440).toNat)
        (formatHhmm ((tOn - tz.minutes) % 1440).toNat)
        (formatHhmm ((((tOn - tz.minutes) % 1440).toNat + 5 : Int) % 1440).toNat)
        (formatHhmm ((((tOn - tz.minutes) % 1440).toNat + 7 : Int) % 1440).toNat)
        wdS wdW (sameSet A B) o) ∧
      (∃ o ∈ objs, suspendTime o = some (formatHhmm ((tOff - tz.minutes) % 1440).toNat)) ∧
      ("datastores" ∈ normalizeNamespaces ns → ∀ o ∈ datastoresObjects tenant
        (formatHhmm ((tOff - tz.minutes) % 1440).toNat)
        (formatHhmm ((((tOn - tz.minutes) % 1440).toNat + 7 : Int) % 1440).toNat)
        (formatHhmm ((tOn - tz.minutes) % 1440).toNat)
        (formatHhmm ((((tOn - tz.minutes) % 1440).toNat + 5 : Int) % 1440).toNat) wdS wdW, o ∈ objs) ∧
      (∀ g ∈ normalizeNamespaces ns, g ≠ "datastores" → ∃ o ∈ objs,
        o.metadata.«namespace» = tenant ++ "-" ++ g ∧
        restoreTime o = some (formatHhmm ((((tOn - tz.minutes) % 1440).toNat + 7 : Int) % 1440).toNat)) := by
  obtain ⟨_, _, wdS, wdW, A, B, hloc, hoff', hon', hwdS, hwdW, hpgb, hdep, hS, hW, hA, hB, -⟩ :=
    makeAllObjectsForTenant_inputs hoff hon hw hDs hs hDw hwk
  obtain ⟨objs, hobjs, hrun, hsus, hds, hgroups⟩ :=
    makeAllObjectsForTenant_run tenant ns hloc hoff' hon' hwdS hwdW hpgb hdep hS hW
  exact ⟨objs, wdS, wdW, A, B, hobjs, hS, hW, hA, hB, hrun, hsus, hds, hgroups⟩

/-- `sameSet` is equality of members. -/
theorem sameSet_iff {A B : List Int} : sameSet A B = true ↔ ∀ x, x ∈ A ↔ x ∈ B := by
  simp only [sameSet, Bool.and_eq_true, List.all_eq_true, decide_eq_true_eq]
  exact ⟨fun h x => ⟨h.1 x, h.2 x⟩, fun h => ⟨fun x => (h x).1, fun x => (h x).2⟩⟩

/-- `sameSet` reads only the members of its lists. -/
theorem sameSet_congr {A A' B B' : List Int} (hA : ∀ x, x ∈ A ↔ x ∈ A')
    (hB : ∀ x, x ∈ B ↔ x ∈ B') : sameSet A B = sameSet A' B' :=
  Bool.eq_iff_iff.2 (by simp only [sameSet_iff, hA, hB])

/-- The UTC weekdays of local instants: the days moved by the day shift of the time. -/
theorem mem_utcDays {tz : FixedOffset} {D : List Nat} {t : Nat} {w : Int} :
    w ∈ utcDays tz D t ↔ ∃ d ∈ D, w = (d + (t - tz.minutes) / 1440 % 7) % 7 := by
  rw [utcDays, List.mem_map]
  exact ⟨fun ⟨d, hd, he⟩ => ⟨d, hd, by rw [← he, triggerAt_utcWeekMinute]⟩,
    fun ⟨d, hd, he⟩ => ⟨d, hd, by rw [he, triggerAt_utcWeekMinute]⟩⟩

/-! ## Triggers of a run -/

section Triggers
variable {objs : List SleepInfo} {tenant offUtc onUtc onPgb onDep wdS wdW : String} {b : Bool}
  (hrun : ∀ o ∈ objs, RunObject tenant offUtc onUtc onPgb onDep wdS wdW b o)
include hrun

/-- The sleep triggers of a run are the shifted sleep days at the UTC off time. -/
theorem isSleepTrigger_iff {A : List Int} (hS : expandWeekdaysStr wdS = .ok A)
    (hex : ∃ o ∈ objs, suspendTime o = some offUtc) (p : Int × String) :
    IsSleepTrigger objs p ↔ ∃ w ∈ A, p = (w, offUtc) := by
  constructor
  · rintro ⟨o, ho, t, ht, ws, hws, w, hw, rfl⟩
    obtain ⟨rfl, hwd⟩ := (hrun o ho).suspend t ht
    rw [hwd, hS] at hws
    cases hws
    exact ⟨w, hw, rfl⟩
  · rintro ⟨w, hw, rfl⟩
    obtain ⟨o, ho, hs⟩ := hex
    exact ⟨o, ho, offUtc, hs, A, by rw [((hrun o ho).suspend _ hs).2, hS], w, hw, rfl⟩

/-- The wake triggers of a datastores object of a run: the shifted wake days at the time of the
object's name. -/
theorem isWakeTriggerOf_iff {B : List Int} {name time : String}
    (hW : expandWeekdaysStr wdW = .ok B)
    (htime : ∀ o ∈ objs, o.metadata.«namespace» = tenant ++ "-datastores" →
      o.metadata.name = name → ∀ t, restoreTime o = some t → t = time)
    (hex : ∃ o ∈ objs, o.metadata.«namespace» = tenant ++ "-datastores" ∧
      o.metadata.name = name ∧ restoreTime o = some time) (p : Int × String) :
    IsWakeTriggerOf objs (tenant ++ "-datastores") name p ↔ ∃ w ∈ B, p = (w, time) := by
  constructor
  · rintro ⟨o, ho, hns, hname, t, ht, ws, hws, w, hw, rfl⟩
    rw [((hrun o ho).datastores hns t ht).1, hW] at hws
    cases hws
    exact ⟨w, hw, by rw [htime o ho hns hname t ht]⟩
  · rintro ⟨w, hw, rfl⟩
    obtain ⟨o, ho, hns, hname, ht⟩ := hex
    exact ⟨o, ho, hns, hname, time, ht, B, by rw [((hrun o ho).datastores hns _ ht).1, hW], w, hw,
      rfl⟩

/-- The wake triggers of a group other than the datastores: the shifted wake days at the
workloads' on time, whether the group has a pair or a combined object. -/
theorem isWakeTriggerIn_iff {A B : List Int} {g : String} (hS : expandWeekdaysStr wdS = .ok A)
    (hW : expandWeekdaysStr wdW = .ok B) (hb : b = sameSet A B)
    (hg : tenant ++ "-" ++ g ≠ tenant ++ "-datastores")
    (hex : ∃ o ∈ objs, o.metadata.«namespace» = tenant ++ "-" ++ g ∧ restoreTime o = some onDep)
    (p : Int × String) :
    IsWakeTriggerIn objs (tenant ++ "-" ++ g) p ↔ ∃ w ∈ B, p = (w, onDep) := by
  -- a pair's wake object carries the wake days, a combined object the same set as sleep days
  have hdays : ∀ o ∈ objs, o.metadata.«namespace» = tenant ++ "-" ++ g → ∀ t,
      restoreTime o = some t → t = onDep ∧ ∃ ws, expandWeekdaysStr o.spec.weekdays = .ok ws ∧
        ∀ w, w ∈ ws ↔ w ∈ B := fun o ho hns t ht => by
    obtain ⟨rfl, hwd | ⟨hwd, hsame⟩⟩ := (hrun o ho).group (hns ▸ hg) t ht
    · exact ⟨rfl, B, by rw [hwd, hW], fun _ => Iff.rfl⟩
    · exact ⟨rfl, A, by rw [hwd, hS], sameSet_iff.1 (hb ▸ hsame)⟩
  constructor
  · rintro ⟨o, ho, hns, t, ht, ws, hws, w, hw, rfl⟩
    obtain ⟨rfl, ws', hws', hmem⟩ := hdays o ho hns t ht
    cases hws.symm.trans hws'
    exact ⟨w, (hmem w).1 hw, rfl⟩
  · rintro ⟨w, hw, rfl⟩
    obtain ⟨o, ho, hns, ht⟩ := hex
    obtain ⟨-, ws, hws, hmem⟩ := hdays o ho hns _ ht
    exact ⟨o, ho, hns, onDep, ht, ws, hws, w, (hmem w).2 hw, rfl⟩

end Triggers

/-- The sleep triggers of every run on specs of the language that the parser accepts, with
valid times, in a zone of fixed offset, are the UTC instants of the local off time on the sleep
days; the wake triggers of the PgCluster and HDFS object are those of the local on time on the
wake days. -/
theorem makeAllObjectsForTenant_utc_triggers (tenant offLocal onLocal weekdays : String)
    (sleepdays wakedays ns : Option String) (tz : FixedOffset) (tOff tOn : Nat) (Ds Dw : List Nat)
    (hoff : parseHhmm offLocal = .ok tOff) (hon : parseHhmm onLocal = .ok tOn)
    (hw : ∃ r, humanWeekdaysToKube weekdays = .ok r)
    (hDs : weekdaySpecDays (sideSpec sleepdays weekdays) = some Ds)
    (hs : ∃ r, humanWeekdaysToKube (sideSpec sleepdays weekdays) = .ok r)
    (hDw : weekdaySpecDays (sideSpec wakedays weekdays) = some Dw)
    (hwk : ∃ r, humanWeekdaysToKube (sideSpec wakedays weekdays) = .ok r) :
    ∃ objs, makeAllObjectsForTenant tenant offLocal onLocal weekdays sleepdays wakedays ns tz =
        .ok objs ∧
      (∀ p, IsSleepTrigger objs p ↔ ∃ d ∈ Ds, p = triggerAt (utcWeekMinute tz d tOff)) ∧
      ("datastores" ∈ normalizeNamespaces ns → ∀ p,
        IsWakeTriggerOf objs (tenant ++ "-datastores") ("wake-ds-deploys-" ++ tenant ++ "-pg-hdfs") p ↔
          ∃ d ∈ Dw, p = triggerAt (utcWeekMinute tz d tOn)) := by
  obtain ⟨objs, wdS, wdW, A, B, hobjs, hS, hW, hA, hB, hrun, hsus, hds, -⟩ :=
    makeAllObjectsForTenant_lang tenant ns hoff hon hw hDs hs hDw hwk
  refine ⟨objs, hobjs, fun p => ?_, fun hsel p => ?_⟩
  · rw [isSleepTrigger_iff hrun hS hsus]
    simp only [hA, triggerAt_utcWeekMinute]
    exact exists_days_iff
  · have hex : ∃ o ∈ objs, o.metadata.«namespace» = tenant ++ "-datastores" ∧
        o.metadata.name = "wake-ds-deploys-" ++ tenant ++ "-pg-hdfs" ∧
        restoreTime o = some (formatHhmm ((tOn - tz.minutes) % 1440).toNat) :=
      ⟨_, hds hsel _ (List.mem_cons_of_mem _ (List.mem_cons_self _ _)),
        by simp [crYaml, meta], by simp [crYaml, meta, wakeName_eq], rfl⟩
    rw [isWakeTriggerOf_iff hrun hW
      (fun o ho hns hname _ ht => ((hrun o ho).datastoresTime hns ht).1 hname) hex p]
    simp only [hB, triggerAt_utcWeekMinute]
    exact exists_days_iff

/-- The run on the spec's example: Monday to Friday, off at 22:00 and on at 06:00 in Bogota. -/
theorem makeAllObjectsForTenant_utc_triggers_weekdays :
    ∃ objs, makeAllObjectsForTenant "acme" "22:00" "06:00" weekdaysDefault (some "lunes-viernes")
        none none tzLocal = .ok objs ∧
      (∀ p, IsSleepTrigger objs p ↔
        ∃ d ∈ ([1, 2, 3, 4, 5] : List Nat), p = triggerAt (utcWeekMinute tzLocal d 1320)) ∧
      ("datastores" ∈ normalizeNamespaces none → ∀ p,
        IsWakeTriggerOf objs ("acme" ++ "-datastores") ("wake-ds-deploys-" ++ "acme" ++ "-pg-hdfs") p ↔
          ∃ d ∈ ([0, 1, 2, 3, 4, 5, 6] : List Nat), p = triggerAt (utcWeekMinute tzLocal d 360)) :=
  makeAllObjectsForTenant_utc_triggers "acme" "22:00" "06:00" weekdaysDefault (some "lunes-viernes")
    none none tzLocal 1320 360 [1, 2, 3, 4, 5] [0, 1, 2, 3, 4, 5, 6] rfl rfl ⟨_, rfl⟩ (by decide)
    ⟨_, rfl⟩ (by decide) ⟨_, rfl⟩

/-- A spec of the language that mixes a day name with a digit ends the run: the parser reads
it as day names and rejects the digit. -/
theorem makeAllObjectsForTenant_mixed_spec :
    weekdaySpecDays "lunes,3" = some [1, 3] ∧
      makeAllObjectsForTenant "acme" "22:00" "06:00" weekdaysDefault (some "lunes,3") none none =
        .error "[ERROR] Dia no reconocido: '3'" :=
  ⟨by decide, rfl⟩

/-! ## Staggered wake-ups -/

/-- A wake-up `k` minutes after the on time that stays in the UTC day of the on time is the
weekly instant `k` minutes later. -/
theorem triggerAt_laterBy (tz : FixedOffset) (d : Int) (t : Nat) {k : Int} (hk : 0 ≤ k)
    (hday : (t - tz.minutes) % 1440 + k < 1440) :
    triggerAt (laterBy (utcWeekMinute tz d t) k) =
      ((d + (t - tz.minutes) / 1440 % 7) % 7,
        formatHhmm ((((t - tz.minutes) % 1440).toNat + k : Int) % 1440).toNat) := by
  unfold triggerAt laterBy utcWeekMinute weekMinutes
  refine Prod.ext ?_ (congrArg (fun x : Int => formatHhmm x.toNat) ?_) <;> dsimp only <;> omega

/-- The staggered wake triggers of a run: the shifted wake days, each with the on time moved by
5 or 7 minutes round the clock of one day. -/
theorem makeAllObjectsForTenant_wake_triggers (tenant : String) (ns : Option String)
    {offLocal onLocal weekdays : String} {sleepdays wakedays : Option String} {tz : FixedOffset}
    {tOff tOn : Nat} {Ds Dw : List Nat}
    (hoff : parseHhmm offLocal = .ok tOff) (hon : parseHhmm onLocal = .ok tOn)
    (hw : ∃ r, humanWeekdaysToKube weekdays = .ok r)
    (hDs : weekdaySpecDays (sideSpec sleepdays weekdays) = some Ds)
    (hs : ∃ r, humanWeekdaysToKube (sideSpec sleepdays weekdays) = .ok r)
    (hDw : weekdaySpecDays (sideSpec wakedays weekdays) = some Dw)
    (hwk : ∃ r, humanWeekdaysToKube (sideSpec wakedays weekdays) = .ok r) :
    ∃ objs, makeAllObjectsForTenant tenant offLocal onLocal weekdays sleepdays wakedays ns tz =
        .ok objs ∧
      ("datastores" ∈ normalizeNamespaces ns →
        (∀ p, IsWakeTriggerOf objs (tenant ++ "-datastores")
          ("wake-ds-deploys-" ++ tenant ++ "-pgbouncer") p ↔ ∃ d ∈ Dw,
            p = ((d + (tOn - tz.minutes) / 1440 % 7) % 7,
              formatHhmm ((((tOn - tz.minutes) % 1440).toNat + 5 : Int) % 1440).toNat)) ∧
        (∀ p, IsWakeTriggerOf objs (tenant ++ "-datastores") ("wake-ds-deploys-" ++ tenant) p ↔
          ∃ d ∈ Dw, p = ((d + (tOn - tz.minutes) / 1440 % 7) % 7,
            formatHhmm ((((tOn - tz.minutes) % 1440).toNat + 7 : Int) % 1440).toNat))) ∧
      (∀ g ∈ normalizeNamespaces ns, g ≠ "datastores" → ∀ p,
        IsWakeTriggerIn objs (tenant ++ "-" ++ g) p ↔ ∃ d ∈ Dw,
          p = ((d + (tOn - tz.minutes) / 1440 % 7) % 7,
            formatHhmm ((((tOn - tz.minutes) % 1440).toNat + 7 : Int) % 1440).toNat)) := by
  obtain ⟨objs, wdS, wdW, A, B, hobjs, hS, hW, -, hB, hrun, -, hds, hgroups⟩ :=
    makeAllObjectsForTenant_lang tenant ns hoff hon hw hDs hs hDw hwk
  refine ⟨objs, hobjs, fun hsel => ⟨fun p => ?_, fun p => ?_⟩, fun g hg hgd p => ?_⟩
  · rw [isWakeTriggerOf_iff hrun hW
      (fun o ho hns hname _ ht => ((hrun o ho).datastoresTime hns ht).2.1 hname) ⟨_, hds hsel _
      (List.mem_cons_of_mem _ (List.mem_cons_of_mem _ (List.mem_cons_self _ _))),
      by simp [crYaml, meta], by simp [crYaml, meta, wakeName_eq], rfl⟩ p]
    simp only [hB]
    exact exists_days_iff
  · rw [isWakeTriggerOf_iff hrun hW
      (fun o ho hns hname _ ht => ((hrun o ho).datastoresTime hns ht).2.2 hname) ⟨_, hds hsel _ (List.mem_cons_of_mem _
      (List.mem_cons_of_mem _ (List.mem_cons_of_mem _ (List.mem_singleton_self _)))),
      by simp [crYaml, meta], by simp [crYaml, meta, wakeName_eq], rfl⟩ p]
    simp only [hB]
    exact exists_days_iff
  · rw [isWakeTriggerIn_iff hrun hS hW rfl (groupNs_ne hgd) (hgroups g hg hgd) p]
    simp only [hB]
    exact exists_days_iff

/-- On Mondays at 18:57 in Bogota, 23:57 UTC: PgBouncer wakes at 00:02 UTC on Monday, where the
instant five minutes after Monday 23:57 is Tuesday 00:02. -/
theorem makeAllObjectsForTenant_stagger_wraps :
    ∃ objs, makeAllObjectsForTenant "acme" "22:00" "18:57" weekdaysDefault none (some "lunes") none
        tzLocal = .ok objs ∧
      (∀ p, IsWakeTriggerOf objs ("acme" ++ "-datastores") ("wake-ds-deploys-" ++ "acme" ++ "-pgbouncer")
        p ↔ p = (1, "00:02")) ∧
      (∀ p, (∃ d ∈ ([1] : List Nat), p = triggerAt (laterBy (utcWeekMinute tzLocal d 1137) 5)) ↔
        p = (2, "00:02")) := by
  obtain ⟨objs, hobjs, hds, -⟩ := makeAllObjectsForTenant_wake_triggers "acme" none
    (show parseHhmm "22:00" = .ok 1320 from rfl) (show parseHhmm "18:57" = .ok 1137 from rfl)
    (show ∃ r, humanWeekdaysToKube weekdaysDefault = .ok r from ⟨_, rfl⟩)
    (show weekdaySpecDays (sideSpec none weekdaysDefault) = some [0, 1, 2, 3, 4, 5, 6] by decide)
    ⟨_, rfl⟩ (show weekdaySpecDays (sideSpec (some "lunes") weekdaysDefault) = some [1] by decide) ⟨_, rfl⟩
  refine ⟨objs, hobjs, fun p => ?_, fun p => ?_⟩
  · rw [(hds (by decide)).1 p]
    simp only [List.mem_singleton, exists_eq_left]
    rfl
  · simp only [List.mem_singleton, exists_eq_left]
    rfl

/-! ## The objects of each namespace -/

/-- Same days on both sides: the apps group gets one combined object. -/
example : ∃ objs, makeAllObjectsForTenant "acme" "08:00" "18:00" "lunes-viernes" none none
    (some "apps") tzLocal = .ok objs ∧ layoutOf objs "acme-apps" = [("acme-apps", none)] :=
  ⟨_, rfl, rfl⟩

end TenantPower
