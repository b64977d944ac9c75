import TenantPower.Schedule
import TenantPower.Proofs.Parser
import TenantPower.Proofs.Time

/-!
# Proofs: what a run of the assembler builds

Once its weekday specs are read and its times converted, `makeAllObjectsForTenant` succeeds, and
every object it builds is a `RunObject`: it suspends at the UTC off time on the shifted sleep
days, or restores on the shifted wake days at the time its group and name say. Each selected
group adds an object, and at least one group is always selected
(`makeAllObjectsForTenant_run`). The generators are proved one by one: the datastores objects are
a fixed list of four, and `makeNsSplitDays` builds a combined object or a pair.
-/

namespace TenantPower


/-! ## Reading the specs -/

theorem sideWeekdays_eq {own : Option String} {shared rd r : String}
    (hd : humanWeekdaysToKube shared = .ok rd) (h : humanWeekdaysToKube (sideSpec own shared) = .ok r) :
    sideWeekdays own rd = .ok r := by
  cases own with
  | none =>
    obtain rfl : rd = r := Except.ok.inj (hd.symm.trans h)
    rfl
  | some s =>
    by_cases hs : s = ""
    · simp only [sideSpec, hs, if_true] at h
      obtain rfl : rd = r := Except.ok.inj (hd.symm.trans h)
      rw [sideWeekdays, if_pos hs]
      rfl
    · simp only [sideSpec, hs, if_false] at h
      rw [sideWeekdays, if_neg hs, h]

theorem localWeekdays_eq {weekdays rd rS rW : String} {sleepdays wakedays : Option String}
    (hd : humanWeekdaysToKube weekdays = .ok rd)
    (hs : humanWeekdaysToKube (sideSpec sleepdays weekdays) = .ok rS)
    (hw : humanWeekdaysToKube (sideSpec wakedays weekdays) = .ok rW) :
    localWeekdays weekdays sleepdays wakedays = .ok (rS, rW) := by
  simp only [localWeekdays, hd, ok_bind, sideWeekdays_eq hd hs, sideWeekdays_eq hd hw]
  rfl

/-- A spec the run reads and the parser rejects makes the reading fail. -/
theorem localWeekdays_error {weekdays s m : String} {sleepdays wakedays : Option String}
    (hs : s = weekdays ∨ s = sideSpec sleepdays weekdays ∨ s = sideSpec wakedays weekdays)
    (h : humanWeekdaysToKube s = .error m) :
    ∃ m', localWeekdays weekdays sleepdays wakedays = .error m' := by
  cases hw : humanWeekdaysToKube weekdays with
  | error e => exact ⟨e, by simp only [localWeekdays, hw]; rfl⟩
  | ok rd =>
    -- a side that reads its own spec fails with it
    have hside : ∀ own, s = sideSpec own weekdays → sideWeekdays own rd = .error m := by
      rintro (_ | x) rfl
      · simp only [sideSpec, hw] at h
        cases h
      · by_cases hx : x = ""
        · simp only [sideSpec, hx, if_true, hw] at h
          cases h
        · simp only [sideSpec, hx, if_false] at h
          rw [sideWeekdays, if_neg hx, h]
    rcases hs with rfl | hs | hs
    · rw [hw] at h
      cases h
    · exact ⟨m, by simp only [localWeekdays, hw, ok_bind, hside _ hs]; rfl⟩
    · cases hsl : sideWeekdays sleepdays rd with
      | error e => exact ⟨e, by simp only [localWeekdays, hw, ok_bind, hsl]; rfl⟩
      | ok r => exact ⟨m, by simp only [localWeekdays, hw, ok_bind, hsl, hside _ hs]; rfl⟩

/-! ## The objects of a run -/

/-- What every object of a run carries, given the run's UTC off and on times, its two staggered
on times and its shifted sleep and wake specs. -/
structure RunObject (tenant offUtc onUtc onPgb onDep wdS wdW : String) (sameDays : Bool)
    (o : SleepInfo) : Prop where
  /-- An object that suspends does so at the off time, on the sleep days. -/
  suspend : ∀ t, suspendTime o = some t → t = offUtc ∧ o.spec.weekdays = wdS
  /-- A datastores object restores on the wake days, at the time its name says. -/
  datastores : o.metadata.«namespace» = tenant ++ "-datastores" → ∀ t, restoreTime o = some t →
    o.spec.weekdays = wdW ∧
      (o.metadata.name = "wake-ds-deploys-" ++ tenant ++ "-pg-hdfs" ∧ t = onUtc ∨
        o.metadata.name = "wake-ds-deploys-" ++ tenant ++ "-pgbouncer" ∧ t = onPgb ∨
        o.metadata.name = "wake-ds-deploys-" ++ tenant ∧ t = onDep)
  /-- Any other object restores at the workloads' on time, on the wake days, or, combined, on
  the sleep days when both sides have the same days. -/
  group : o.metadata.«namespace» ≠ tenant ++ "-datastores" → ∀ t, restoreTime o = some t →
    t = onDep ∧ (o.spec.weekdays = wdW ∨ o.spec.weekdays = wdS ∧ sameDays = true)

/-- The datastores objects' names, as the generator spells them. -/
theorem wakeName_eq (tenant : String) : "wake-" ++ ("ds-deploys-" ++ tenant) = "wake-ds-deploys-" ++ tenant := by
  rw [← String.append_assoc]
  rfl

theorem datastoresObjects_run (tenant offUtc onUtc onPgb onDep wdS wdW : String) (b : Bool) :
    ∀ o ∈ datastoresObjects tenant offUtc onDep onUtc onPgb wdS wdW,
      RunObject tenant offUtc onUtc onPgb onDep wdS wdW b o := by
  intro o ho
  simp only [datastoresObjects, List.mem_cons, List.mem_singleton, List.not_mem_nil, or_false] at ho
  rcases ho with rfl | rfl | rfl | rfl <;>
    exact ⟨by simp [suspendTime, crYaml, meta, sleepinfoBase],
      by simp [restoreTime, crYaml, meta, sleepinfoBase, wakeName_eq], by simp [crYaml, meta]⟩

theorem datastoresObjects_suspends (tenant offUtc onDep onPgHdfs onPgb wdS wdW : String) :
    ∃ o ∈ datastoresObjects tenant offUtc onDep onPgHdfs onPgb wdS wdW, suspendTime o = some offUtc :=
  ⟨_, List.mem_cons_self _ _, rfl⟩

/-- `make_ns_split_days` on shifted specs: its objects carry the run's times and days, one of
them suspends, and one of the group's namespace restores at the workloads' on time. -/
theorem makeNsSplitDays_run {tenant g b offUtc onUtc onPgb onDep wdS wdW : String} {s p : Bool}
    {sp wp : List PatchBlock} {ex : List ExcludeRef} {A B : List Int}
    (hS : expandWeekdaysStr wdS = .ok A) (hW : expandWeekdaysStr wdW = .ok B)
    (hg : tenant ++ "-" ++ g ≠ tenant ++ "-datastores") :
    ∃ X, makeNsSplitDays tenant g b offUtc onDep wdS wdW s p sp wp ex = .ok X ∧
      (∀ o ∈ X, RunObject tenant offUtc onUtc onPgb onDep wdS wdW (sameSet A B) o) ∧
      (∃ o ∈ X, suspendTime o = some offUtc) ∧
      (∃ o ∈ X, o.metadata.«namespace» = tenant ++ "-" ++ g ∧ restoreTime o = some onDep) := by
  simp only [makeNsSplitDays, hS, hW, ok_bind]
  by_cases hsame : sameSet A B = true
  · rw [if_pos hsame]
    refine ⟨_, rfl, ?_, ⟨_, List.mem_singleton_self _, rfl⟩, ⟨_, List.mem_singleton_self _, rfl, rfl⟩⟩
    simp only [List.mem_singleton, forall_eq]
    exact ⟨by simp [suspendTime, crYaml, meta, sleepinfoBase], fun h => absurd h hg,
      by simp [restoreTime, crYaml, meta, sleepinfoBase, hsame]⟩
  · rw [if_neg hsame]
    refine ⟨_, rfl, ?_, ⟨_, List.mem_cons_self _ _, by simp [suspendTime, crYaml, meta, sleepinfoBase]⟩,
      ⟨_, List.mem_cons_of_mem _ (List.mem_singleton_self _), rfl,
        by simp [restoreTime, crYaml, meta, sleepinfoBase]⟩⟩
    simp only [List.mem_cons, List.mem_singleton, List.not_mem_nil, or_false, forall_eq_or_imp,
      forall_eq]
    exact ⟨⟨by simp [suspendTime, crYaml, meta, sleepinfoBase], fun h => absurd h hg,
      by simp [restoreTime, crYaml, meta]⟩, ⟨by simp [suspendTime, crYaml, meta],
      fun h => absurd h hg, by simp [restoreTime, crYaml, meta, sleepinfoBase]⟩⟩

/-- The datastores wake objects have names of different lengths. -/
theorem datastoresNames_ne (tenant : String) :
    "wake-ds-deploys-" ++ tenant ++ "-pg-hdfs" ≠ "wake-ds-deploys-" ++ tenant ++ "-pgbouncer" ∧
    "wake-ds-deploys-" ++ tenant ++ "-pg-hdfs" ≠ "wake-ds-deploys-" ++ tenant ∧
    "wake-ds-deploys-" ++ tenant ++ "-pgbouncer" ≠ "wake-ds-deploys-" ++ tenant := by
  refine ⟨fun h => ?_, fun h => ?_, fun h => ?_⟩ <;> have := congrArg String.length h <;>
    simp at this <;> exact absurd this (by decide)

/-- The restore time of a datastores object of a run is the one its name says. -/
theorem RunObject.datastoresTime {tenant offUtc onUtc onPgb onDep wdS wdW : String} {b : Bool}
    {o : SleepInfo} (h : RunObject tenant offUtc onUtc onPgb onDep wdS wdW b o)
    (hns : o.metadata.«namespace» = tenant ++ "-datastores") {t : String}
    (ht : restoreTime o = some t) :
    (o.metadata.name = "wake-ds-deploys-" ++ tenant ++ "-pg-hdfs" → t = onUtc) ∧
      (o.metadata.name = "wake-ds-deploys-" ++ tenant ++ "-pgbouncer" → t = onPgb) ∧
      (o.metadata.name = "wake-ds-deploys-" ++ tenant → t = onDep) := by
  obtain ⟨n1, n2, n3⟩ := datastoresNames_ne tenant
  rcases (h.datastores hns t ht).2 with ⟨hn, rfl⟩ | ⟨hn, rfl⟩ | ⟨hn, rfl⟩ <;> rw [hn] <;>
    simp [n1, n2, n3, n1.symm, n2.symm, n3.symm]

/-- Two namespaces of one tenant are equal only for the same group. -/
theorem groupNs_inj {tenant g g' : String} (h : tenant ++ "-" ++ g = tenant ++ "-" ++ g') : g = g' := by
  have hl := congrArg String.data h
  simp only [String.data_append, List.append_assoc, List.append_cancel_left_eq] at hl
  exact String.ext hl

/-- The datastores namespace, as the datastores generator spells it. -/
theorem datastoresNs_eq (tenant : String) : tenant ++ "-datastores" = tenant ++ "-" ++ "datastores" := by
  rw [String.append_assoc]
  rfl

/-- The namespace of a group other than the datastores. -/
theorem groupNs_ne {tenant g : String} (h : g ≠ "datastores") :
    tenant ++ "-" ++ g ≠ tenant ++ "-datastores" :=
  fun he => h (groupNs_inj (he.trans (datastoresNs_eq tenant)))

/-- `normalize_namespaces` selects at least one group, and only groups. -/
theorem normalizeNamespaces_spec (ns : Option String) :
    normalizeNamespaces ns ≠ [] ∧ ∀ g ∈ normalizeNamespaces ns, g ∈ validSuffixes := by
  unfold normalizeNamespaces
  split
  · dsimp only
    split_ifs with h1 h2
    · exact ⟨by decide, fun g hg => hg⟩
    · exact ⟨by decide, fun g hg => hg⟩
    · refine ⟨h2, fun g hg => ?_⟩
      obtain ⟨p, -, hp⟩ := List.mem_filterMap.1 hg
      split_ifs at hp with hp1 hp2
      cases hp
      exact hp2
  · exact ⟨by decide, fun g hg => hg⟩

/-- With a selection that is not empty, `allow_ns` is membership. -/
theorem allowNs_iff {sel : List String} (h : sel ≠ []) (g : String) :
    allowNs sel g = true ↔ g ∈ sel := by
  simp [allowNs, h]

/-- `addIfAllowed` of a generator that succeeds. -/
theorem addIfAllowed_ok {sel : List String} {g : String} {make : Except String (List SleepInfo)}
    {X : List SleepInfo} (h : make = .ok X) :
    addIfAllowed sel g make = .ok (if allowNs sel g then X else []) := by
  unfold addIfAllowed
  split_ifs
  · exact h
  · rfl

theorem makeDatastoresNativeDeploysSplitDays_eq {tenant offUtc onDep onPgHdfs onPgb wdS wdW : String}
    {A B : List Int} (hS : expandWeekdaysStr wdS = .ok A) (hW : expandWeekdaysStr wdW = .ok B) :
    makeDatastoresNativeDeploysSplitDays tenant offUtc onDep onPgHdfs onPgb wdS wdW =
      .ok (datastoresObjects tenant offUtc onDep onPgHdfs onPgb wdS wdW) := by
  simp only [makeDatastoresNativeDeploysSplitDays, hS, hW, ok_bind, ite_self]
  rfl

/-! ## Layouts -/

@[simp] theorem layoutOf_append (X Y : List SleepInfo) (n : String) :
    layoutOf (X ++ Y) n = layoutOf X n ++ layoutOf Y n := by
  simp only [layoutOf, List.filter_append, List.map_append]

/-- The layout of objects that all lie in the namespace `n`. -/
theorem layoutOf_of_namespace {X : List SleepInfo} {n : String}
    (hX : ∀ o ∈ X, o.metadata.«namespace» = n) (n' : String) :
    layoutOf X n' = if n = n' then X.map nameRole else [] := by
  split_ifs with h
  · rw [layoutOf, List.filter_eq_self.2 fun o ho => by simp [hX o ho, h]]
  · rw [layoutOf, List.filter_eq_nil_iff.2 fun o ho => by simp [hX o ho, h]]
    rfl

theorem datastoresObjects_layout (tenant offUtc onDep onPgHdfs onPgb wdS wdW : String) (b : Bool) :
    (datastoresObjects tenant offUtc onDep onPgHdfs onPgb wdS wdW).map nameRole =
      groupLayout tenant "datastores" b := by
  simp [datastoresObjects, groupLayout, nameRole, crYaml, meta, ← String.append_assoc]

/-- `make_ns_split_days` builds the combined object or the pair that the days ask for. -/
theorem makeNsSplitDays_layout {tenant g b offUtc onDep wdS wdW : String} {s p : Bool}
    {sp wp : List PatchBlock} {ex : List ExcludeRef} {A B : List Int} {X : List SleepInfo}
    (hS : expandWeekdaysStr wdS = .ok A) (hW : expandWeekdaysStr wdW = .ok B) (hg : g ≠ "datastores")
    (h : makeNsSplitDays tenant g b offUtc onDep wdS wdW s p sp wp ex = .ok X) :
    X.map nameRole = groupLayout tenant g (sameSet A B) := by
  simp only [makeNsSplitDays, hS, hW, ok_bind] at h
  rw [groupLayout, if_neg hg]
  split_ifs at h ⊢ <;> cases h <;> rfl

theorem makeNsSplitDays_namespace {tenant g b offUtc onDep wdS wdW : String} {s p : Bool}
    {sp wp : List PatchBlock} {ex : List ExcludeRef} {X : List SleepInfo}
    (h : makeNsSplitDays tenant g b offUtc onDep wdS wdW s p sp wp ex = .ok X) :
    X ≠ [] ∧ ∀ o ∈ X, o.metadata.«namespace» = tenant ++ "-" ++ g := by
  simp only [makeNsSplitDays] at h
  obtain ⟨A, -, h⟩ := bind_eq_ok.1 h
  obtain ⟨B, -, h⟩ := bind_eq_ok.1 h
  by_cases hsame : sameSet A B = true
  · rw [if_pos hsame] at h
    cases h
    simp [crYaml, meta]
  · rw [if_neg hsame] at h
    cases h
    simp [crYaml, meta]

/-- What a group adds to the layout of the namespace of `g`: its objects when it is `g` and
selected. -/
theorem layoutOf_group {sel : List String} {tenant g g' : String} {X : List SleepInfo}
    (hX : ∀ o ∈ X, o.metadata.«namespace» = tenant ++ "-" ++ g') :
    layoutOf (if g' ∈ sel then X else []) (tenant ++ "-" ++ g) =
      if g' = g ∧ g ∈ sel then X.map nameRole else [] := by
  by_cases hsel : g' ∈ sel
  · rw [if_pos hsel, layoutOf_of_namespace hX]
    by_cases hg : g' = g
    · subst hg
      simp [hsel]
    · rw [if_neg fun h => hg (groupNs_inj h), if_neg fun h => hg h.1]
  · rw [if_neg hsel, if_neg fun (h : g' = g ∧ g ∈ sel) => hsel (h.1 ▸ h.2)]
    rfl

/-- The layout of a run's objects in the namespace of `g`: what group `g` gets when it is
selected, and nothing otherwise. -/
theorem layoutOf_selected {sel : List String} {tenant : String} {b : Bool}
    {D XA XR XI XF : List SleepInfo}
    (hgroups : ∀ q ∈ [("datastores", D), ("apps", XA), ("rocket", XR), ("intelligence", XI),
        ("airflowsso", XF)], q.2.map nameRole = groupLayout tenant q.1 b ∧
      ∀ o ∈ q.2, o.metadata.«namespace» = tenant ++ "-" ++ q.1)
    (hsel : ∀ g ∈ sel, g ∈ validSuffixes) (g : String) :
    layoutOf ((if "datastores" ∈ sel then D else []) ++ (if "apps" ∈ sel then XA else []) ++
        (if "rocket" ∈ sel then XR else []) ++ (if "intelligence" ∈ sel then XI else []) ++
        (if "airflowsso" ∈ sel then XF else [])) (tenant ++ "-" ++ g) =
      if g ∈ sel then groupLayout tenant g b else [] := by
  simp only [List.mem_cons, List.mem_singleton, List.not_mem_nil, or_false, forall_eq_or_imp,
    forall_eq] at hgroups
  obtain ⟨⟨hD, hD'⟩, ⟨hA, hA'⟩, ⟨hR, hR'⟩, ⟨hI, hI'⟩, hF, hF'⟩ := hgroups
  simp only [layoutOf_append, layoutOf_group hD', layoutOf_group hA', layoutOf_group hR',
    layoutOf_group hI', layoutOf_group hF']
  by_cases hg : g ∈ sel
  · -- the selected group is one of the five, and only its own objects lie in its namespace
    have hv := hsel g hg
    simp only [validSuffixes, List.mem_cons, List.mem_singleton, List.not_mem_nil, or_false] at hv
    rcases hv with rfl | rfl | rfl | rfl | rfl <;> simp [hg, hD, hA, hR, hI, hF]
  · simp [hg]

/-- The objects of a run are those of the selected groups. -/
theorem mem_selected_iff {sel : List String} {D XA XR XI XF : List SleepInfo} {o : SleepInfo} :
    o ∈ (if "datastores" ∈ sel then D else []) ++ (if "apps" ∈ sel then XA else []) ++
        (if "rocket" ∈ sel then XR else []) ++ (if "intelligence" ∈ sel then XI else []) ++
        (if "airflowsso" ∈ sel then XF else []) ↔
      ∃ q ∈ [("datastores", D), ("apps", XA), ("rocket", XR), ("intelligence", XI),
        ("airflowsso", XF)], q.1 ∈ sel ∧ o ∈ q.2 := by
  simp only [List.mem_append, List.mem_ite_nil_right, List.mem_cons, List.mem_singleton,
    exists_eq_or_imp, exists_eq_left, List.not_mem_nil, or_false, or_assoc]

/-- A run whose specs are read and whose times are converted: the objects of the selected groups'
generators, in the source's order. -/
theorem makeAllObjectsForTenant_eq (tenant : String) (ns : Option String)
    {offLocal onLocal weekdays rS rW offUtc onUtc onPgb onDep wdS wdW : String}
    {sleepdays wakedays : Option String} {tz : FixedOffset} {offShift onShift : Int}
    {D XA XR XI XF : List SleepInfo}
    (hloc : localWeekdays weekdays sleepdays wakedays = .ok (rS, rW))
    (hoff : toUtcHhmmAndDayshift offLocal tz = .ok (offUtc, offShift))
    (hon : toUtcHhmmAndDayshift onLocal tz = .ok (onUtc, onShift))
    (hwdS : shiftWeekdaysStr rS offShift = .ok wdS) (hwdW : shiftWeekdaysStr rW onShift = .ok wdW)
    (hpgb : addMinutesHhmm onUtc 5 = .ok onPgb) (hdep : addMinutesHhmm onUtc 7 = .ok onDep)
    (hD : makeDatastoresNativeDeploysSplitDays tenant offUtc onDep onUtc onPgb wdS wdW = .ok D)
    (hXA : makeNsSplitDays tenant "apps" "apps" offUtc onDep wdS wdW false false [] [] [] = .ok XA)
    (hXR : makeNsSplitDays tenant "rocket" "rocket" offUtc onDep wdS wdW false false [] [] [] = .ok XR)
    (hXI : makeNsSplitDays tenant "intelligence" "intelligence" offUtc onDep wdS wdW false false [] []
      [] = .ok XI)
    (hXF : makeNsSplitDays tenant "airflowsso" "airflowsso" offUtc onDep wdS wdW true true [] []
      getExcludePgHdfsRefs = .ok XF) :
    makeAllObjectsForTenant tenant offLocal onLocal weekdays sleepdays wakedays ns tz =
      .ok ((if "datastores" ∈ normalizeNamespaces ns then D else []) ++
        (if "apps" ∈ normalizeNamespaces ns then XA else []) ++
        (if "rocket" ∈ normalizeNamespaces ns then XR else []) ++
        (if "intelligence" ∈ normalizeNamespaces ns then XI else []) ++
        (if "airflowsso" ∈ normalizeNamespaces ns then XF else [])) := by
  have hloc' : (localWeekdays weekdays sleepdays wakedays).mapError ("[ERROR] " ++ ·) =
      .ok (rS, rW) := by rw [hloc]; rfl
  simp only [makeAllObjectsForTenant, hloc', ok_bind, hoff, hon, hwdS, hwdW, hpgb, hdep,
    addIfAllowed_ok hD, addIfAllowed_ok hXA, addIfAllowed_ok hXR, addIfAllowed_ok hXI,
    addIfAllowed_ok hXF, allowNs_iff (normalizeNamespaces_spec ns).1]
  rfl

theorem makeAllObjectsForTenant_run (tenant : String) (ns : Option String)
    {offLocal onLocal weekdays rS rW offUtc onUtc onPgb onDep wdS wdW : String}
    {sleepdays wakedays : Option String} {tz : FixedOffset} {offShift onShift : Int} {A B : List Int}
    (hloc : localWeekdays weekdays sleepdays wakedays = .ok (rS, rW))
    (hoff : toUtcHhmmAndDayshift offLocal tz = .ok (offUtc, offShift))
    (hon : toUtcHhmmAndDayshift onLocal tz = .ok (onUtc, onShift))
    (hwdS : shiftWeekdaysStr rS offShift = .ok wdS) (hwdW : shiftWeekdaysStr rW onShift = .ok wdW)
    (hpgb : addMinutesHhmm onUtc 5 = .ok onPgb) (hdep : addMinutesHhmm onUtc 7 = .ok onDep)
    (hS : expandWeekdaysStr wdS = .ok A) (hW : expandWeekdaysStr wdW = .ok B) :
    ∃ objs, makeAllObjectsForTenant tenant offLocal onLocal weekdays sleepdays wakedays ns tz = .ok objs ∧
      (∀ o ∈ objs, RunObject tenant offUtc onUtc onPgb onDep wdS wdW (sameSet A B) o) ∧
      (∃ o ∈ objs, suspendTime o = some offUtc) ∧
      ("datastores" ∈ normalizeNamespaces ns →
        ∀ o ∈ datastoresObjects tenant offUtc onDep onUtc onPgb wdS wdW, o ∈ objs) ∧
      (∀ g ∈ normalizeNamespaces ns, g ≠ "datastores" →
        ∃ o ∈ objs, o.metadata.«namespace» = tenant ++ "-" ++ g ∧ restoreTime o = some onDep) := by
  obtain ⟨hne, hvalid⟩ := normalizeNamespaces_spec ns
  obtain ⟨XA, hXA, hA⟩ := @makeNsSplitDays_run tenant "apps" "apps" offUtc onUtc onPgb
    onDep wdS wdW false false [] [] [] A B hS hW (groupNs_ne (by decide))
  obtain ⟨XR, hXR, hR⟩ := @makeNsSplitDays_run tenant "rocket" "rocket" offUtc onUtc onPgb
    onDep wdS wdW false false [] [] [] A B hS hW (groupNs_ne (by decide))
  obtain ⟨XI, hXI, hI⟩ := @makeNsSplitDays_run tenant "intelligence" "intelligence" offUtc
    onUtc onPgb onDep wdS wdW false false [] [] [] A B hS hW (groupNs_ne (by decide))
  obtain ⟨XF, hXF, hF⟩ := @makeNsSplitDays_run tenant "airflowsso" "airflowsso" offUtc
    onUtc onPgb onDep wdS wdW true true [] [] getExcludePgHdfsRefs A B hS hW (groupNs_ne (by decide))
  refine ⟨_, makeAllObjectsForTenant_eq tenant ns hloc hoff hon hwdS hwdW hpgb hdep
    (makeDatastoresNativeDeploysSplitDays_eq hS hW) hXA hXR hXI hXF, ?_⟩
  set groups := [("datastores", datastoresObjects tenant offUtc onDep onUtc onPgb wdS wdW),
    ("apps", XA), ("rocket", XR), ("intelligence", XI), ("airflowsso", XF)]
  -- what each group adds to the run
  have hgroups : ∀ q ∈ groups,
      (∀ o ∈ q.2, RunObject tenant offUtc onUtc onPgb onDep wdS wdW (sameSet A B) o) ∧
      (∃ o ∈ q.2, suspendTime o = some offUtc) ∧ (q.1 ≠ "datastores" →
        ∃ o ∈ q.2, o.metadata.«namespace» = tenant ++ "-" ++ q.1 ∧ restoreTime o = some onDep) := by
    simp only [groups, List.mem_cons, List.mem_singleton, List.not_mem_nil, or_false]
    rintro q (rfl | rfl | rfl | rfl | rfl)
    · exact ⟨datastoresObjects_run tenant offUtc onUtc onPgb onDep wdS wdW _,
        datastoresObjects_suspends tenant offUtc onDep onUtc onPgb wdS wdW, fun h => absurd rfl h⟩
    · exact ⟨hA.1, hA.2.1, fun _ => hA.2.2⟩
    · exact ⟨hR.1, hR.2.1, fun _ => hR.2.2⟩
    · exact ⟨hI.1, hI.2.1, fun _ => hI.2.2⟩
    · exact ⟨hF.1, hF.2.1, fun _ => hF.2.2⟩
  -- every group is one of them
  have hgroup : ∀ g ∈ normalizeNamespaces ns, ∃ q ∈ groups, q.1 = g := fun g hg =>
    List.mem_map.1 (show g ∈ groups.map Prod.fst from hvalid g hg)
  refine ⟨fun o ho => ?_, ?_, fun hd o ho => mem_selected_iff.2 ⟨_, List.mem_cons_self _ _,
    hd, ho⟩, fun g hg hgd => ?_⟩
  · obtain ⟨q, hq, -, ho⟩ := mem_selected_iff.1 ho
    exact (hgroups q hq).1 o ho
  · obtain ⟨g, hg⟩ := List.exists_mem_of_ne_nil _ hne
    obtain ⟨q, hq, rfl⟩ := hgroup g hg
    obtain ⟨o, ho, hs⟩ := (hgroups q hq).2.1
    exact ⟨o, mem_selected_iff.2 ⟨q, hq, hg, ho⟩, hs⟩
  · obtain ⟨q, hq, rfl⟩ := hgroup g hg
    obtain ⟨o, ho, hs⟩ := (hgroups q hq).2.2 hgd
    exact ⟨o, mem_selected_iff.2 ⟨q, hq, hg, ho⟩, hs⟩

/-! ## The namespaces a run writes to -/

/-- The datastores generator, when it succeeds, builds its four objects. -/
theorem makeDatastoresNativeDeploysSplitDays_ok {tenant offUtc onDep onPgHdfs onPgb wdS wdW : String}
    {X : List SleepInfo}
    (h : makeDatastoresNativeDeploysSplitDays tenant offUtc onDep onPgHdfs onPgb wdS wdW = .ok X) :
    X = datastoresObjects tenant offUtc onDep onPgHdfs onPgb wdS wdW := by
  obtain ⟨A, -, h⟩ := bind_eq_ok.1 h
  obtain ⟨B, -, h⟩ := bind_eq_ok.1 h
  simp only [ite_self] at h
  exact (Except.ok.inj h).symm

theorem makeDatastoresNativeDeploysSplitDays_namespace
    {tenant offUtc onDep onPgHdfs onPgb wdS wdW : String} {X : List SleepInfo}
    (h : makeDatastoresNativeDeploysSplitDays tenant offUtc onDep onPgHdfs onPgb wdS wdW = .ok X) :
    X ≠ [] ∧ ∀ o ∈ X, o.metadata.«namespace» = tenant ++ "-" ++ "datastores" := by
  obtain rfl := makeDatastoresNativeDeploysSplitDays_ok h
  simp [datastoresObjects, crYaml, meta, datastoresNs_eq]

/-- What `addIfAllowed` adds for a group whose generator writes to the namespace `ns`: objects
only when the group is allowed, and then at least one. -/
theorem addIfAllowed_namespace {sel : List String} {g ns : String}
    {make : Except String (List SleepInfo)} {X : List SleepInfo}
    (hmake : ∀ Y, make = .ok Y → Y ≠ [] ∧ ∀ o ∈ Y, o.metadata.«namespace» = ns)
    (h : addIfAllowed sel g make = .ok X) :
    (allowNs sel g = true → X ≠ []) ∧ ∀ o ∈ X, allowNs sel g = true ∧ o.metadata.«namespace» = ns := by
  unfold addIfAllowed at h
  split_ifs at h with ha
  · obtain ⟨hne, hns⟩ := hmake X h
    exact ⟨fun _ => hne, fun o ho => ⟨ha, hns o ho⟩⟩
  · cases h
    exact ⟨fun h' => absurd h' ha, fun o ho => by cases ho⟩

/-- The objects a group adds lie in the namespace of `g` exactly when `g` is that group and it is
allowed. -/
theorem exists_mem_group_iff {sel : List String} {tenant g g' : String} {X : List SleepInfo}
    (hX : (allowNs sel g' = true → X ≠ []) ∧
      ∀ o ∈ X, allowNs sel g' = true ∧ o.metadata.«namespace» = tenant ++ "-" ++ g') :
    (∃ o, o ∈ X ∧ o.metadata.«namespace» = tenant ++ "-" ++ g) ↔ g' = g ∧ allowNs sel g' = true := by
  constructor
  · rintro ⟨o, ho, hns⟩
    exact ⟨groupNs_inj ((hX.2 o ho).2.symm.trans hns), (hX.2 o ho).1⟩
  · rintro ⟨rfl, ha⟩
    obtain ⟨o, ho⟩ := List.exists_mem_of_ne_nil X (hX.1 ha)
    exact ⟨o, ho, (hX.2 o ho).2⟩

/-- Everything a run that succeeds computes: the specs it reads, the UTC times and day shifts,
the shifted specs, the staggered on times and the objects the selected groups' generators add. -/
theorem makeAllObjectsForTenant_ok_cases {tenant offLocal onLocal weekdays : String}
    {sleepdays wakedays ns : Option String} {tz : FixedOffset} {objs : List SleepInfo}
    (h : makeAllObjectsForTenant tenant offLocal onLocal weekdays sleepdays wakedays ns tz = .ok objs) :
    ∃ rS rW offUtc onUtc onPgb onDep wdS wdW : String, ∃ offShift onShift : Int,
      localWeekdays weekdays sleepdays wakedays = .ok (rS, rW) ∧
      toUtcHhmmAndDayshift offLocal tz = .ok (offUtc, offShift) ∧
      toUtcHhmmAndDayshift onLocal tz = .ok (onUtc, onShift) ∧
      shiftWeekdaysStr rS offShift = .ok wdS ∧ shiftWeekdaysStr rW onShift = .ok wdW ∧
      addMinutesHhmm onUtc 5 = .ok onPgb ∧ addMinutesHhmm onUtc 7 = .ok onDep ∧
      ∃ D XA XR XI XF : List SleepInfo,
      addIfAllowed (normalizeNamespaces ns) "datastores"
        (makeDatastoresNativeDeploysSplitDays tenant offUtc onDep onUtc onPgb wdS wdW) = .ok D ∧
      addIfAllowed (normalizeNamespaces ns) "apps"
        (makeNsSplitDays tenant "apps" "apps" offUtc onDep wdS wdW false false [] [] []) = .ok XA ∧
      addIfAllowed (normalizeNamespaces ns) "rocket"
        (makeNsSplitDays tenant "rocket" "rocket" offUtc onDep wdS wdW false false [] [] []) = .ok XR ∧
      addIfAllowed (normalizeNamespaces ns) "intelligence" (makeNsSplitDays tenant "intelligence"
        "intelligence" offUtc onDep wdS wdW false false [] [] []) = .ok XI ∧
      addIfAllowed (normalizeNamespaces ns) "airflowsso" (makeNsSplitDays tenant "airflowsso"
        "airflowsso" offUtc onDep wdS wdW true true [] [] getExcludePgHdfsRefs) = .ok XF ∧
      objs = D ++ XA ++ XR ++ XI ++ XF := by
  simp only [makeAllObjectsForTenant] at h
  obtain ⟨⟨rS, rW⟩, hloc, h⟩ := bind_eq_ok.1 h
  obtain ⟨⟨offUtc, offShift⟩, hoff, h⟩ := bind_eq_ok.1 h
  obtain ⟨⟨onUtc, onShift⟩, hon, h⟩ := bind_eq_ok.1 h
  obtain ⟨wdS, hwdS, h⟩ := bind_eq_ok.1 h
  obtain ⟨wdW, hwdW, h⟩ := bind_eq_ok.1 h
  obtain ⟨onPgb, hpgb, h⟩ := bind_eq_ok.1 h
  obtain ⟨onDep, hdep, h⟩ := bind_eq_ok.1 h
  obtain ⟨D, hD, h⟩ := bind_eq_ok.1 h
  obtain ⟨XA, hXA, h⟩ := bind_eq_ok.1 h
  obtain ⟨XR, hXR, h⟩ := bind_eq_ok.1 h
  obtain ⟨XI, hXI, h⟩ := bind_eq_ok.1 h
  obtain ⟨XF, hXF, h⟩ := bind_eq_ok.1 h
  exact ⟨rS, rW, offUtc, onUtc, onPgb, onDep, wdS, wdW, offShift, onShift, mapError_eq_ok.1 hloc,
    hoff, hon, hwdS, hwdW, hpgb, hdep, D, XA, XR, XI, XF, hD, hXA, hXR, hXI, hXF,
    (Except.ok.inj h).symm⟩

/-- A run that succeeds: the objects the selected groups' generators add, with the times and
shifted specs of the run. -/
theorem makeAllObjectsForTenant_ok_inv {tenant offLocal onLocal weekdays : String}
    {sleepdays wakedays ns : Option String} {tz : FixedOffset} {objs : List SleepInfo}
    (h : makeAllObjectsForTenant tenant offLocal onLocal weekdays sleepdays wakedays ns tz = .ok objs) :
    ∃ offUtc onUtc onPgb onDep wdS wdW : String, ∃ D XA XR XI XF : List SleepInfo,
      addIfAllowed (normalizeNamespaces ns) "datastores"
        (makeDatastoresNativeDeploysSplitDays tenant offUtc onDep onUtc onPgb wdS wdW) = .ok D ∧
      addIfAllowed (normalizeNamespaces ns) "apps"
        (makeNsSplitDays tenant "apps" "apps" offUtc onDep wdS wdW false false [] [] []) = .ok XA ∧
      addIfAllowed (normalizeNamespaces ns) "rocket"
        (makeNsSplitDays tenant "rocket" "rocket" offUtc onDep wdS wdW false false [] [] []) = .ok XR ∧
      addIfAllowed (normalizeNamespaces ns) "intelligence" (makeNsSplitDays tenant "intelligence"
        "intelligence" offUtc onDep wdS wdW false false [] [] []) = .ok XI ∧
      addIfAllowed (normalizeNamespaces ns) "airflowsso" (makeNsSplitDays tenant "airflowsso"
        "airflowsso" offUtc onDep wdS wdW true true [] [] getExcludePgHdfsRefs) = .ok XF ∧
      objs = D ++ XA ++ XR ++ XI ++ XF := by
  obtain ⟨_, _, offUtc, onUtc, onPgb, onDep, wdS, wdW, _, _, -, -, -, -, -, -, -, h⟩ :=
    makeAllObjectsForTenant_ok_cases h
  exact ⟨offUtc, onUtc, onPgb, onDep, wdS, wdW, h⟩

/-- A run that succeeds writes to the namespace of a group exactly when `normalize_namespaces`
selects the group. -/
theorem makeAllObjectsForTenant_namespaces {tenant offLocal onLocal weekdays : String}
    {sleepdays wakedays ns : Option String} {tz : FixedOffset} {objs : List SleepInfo}
    (h : makeAllObjectsForTenant tenant offLocal onLocal weekdays sleepdays wakedays ns tz = .ok objs)
    (g : String) :
    (∃ o ∈ objs, o.metadata.«namespace» = tenant ++ "-" ++ g) ↔ g ∈ normalizeNamespaces ns := by
  obtain ⟨hne, hvalid⟩ := normalizeNamespaces_spec ns
  obtain ⟨_, _, _, _, _, _, D, XA, XR, XI, XF, hD, hXA, hXR, hXI, hXF, rfl⟩ :=
    makeAllObjectsForTenant_ok_inv h
  simp only [List.mem_append, or_and_right, exists_or,
    exists_mem_group_iff (addIfAllowed_namespace
      (fun _ hY => makeDatastoresNativeDeploysSplitDays_namespace hY) hD),
    exists_mem_group_iff (addIfAllowed_namespace (fun _ hY => makeNsSplitDays_namespace hY) hXA),
    exists_mem_group_iff (addIfAllowed_namespace (fun _ hY => makeNsSplitDays_namespace hY) hXR),
    exists_mem_group_iff (addIfAllowed_namespace (fun _ hY => makeNsSplitDays_namespace hY) hXI),
    exists_mem_group_iff (addIfAllowed_namespace (fun _ hY => makeNsSplitDays_namespace hY) hXF),
    allowNs_iff hne]
  constructor
  · rintro ((((⟨rfl, hg⟩ | ⟨rfl, hg⟩) | ⟨rfl, hg⟩) | ⟨rfl, hg⟩) | ⟨rfl, hg⟩) <;> exact hg
  · intro hg
    have hgv := hvalid g hg
    simp only [validSuffixes, List.mem_cons, List.mem_singleton, List.not_mem_nil, or_false] at hgv
    rcases hgv with rfl | rfl | rfl | rfl | rfl <;> simp [hg]

/-- The layout of a run whose specs are read and whose times are converted: in the namespace of
each selected group the objects `groupLayout` lists for the run's UTC days, and nothing in the
namespace of any other group. -/
theorem makeAllObjectsForTenant_layout_of (tenant : String) (ns : Option String)
    {offLocal onLocal weekdays rS rW offUtc onUtc onPgb onDep wdS wdW : String}
    {sleepdays wakedays : Option String} {tz : FixedOffset} {offShift onShift : Int} {A B : List Int}
    (hloc : localWeekdays weekdays sleepdays wakedays = .ok (rS, rW))
    (hoff : toUtcHhmmAndDayshift offLocal tz = .ok (offUtc, offShift))
    (hon : toUtcHhmmAndDayshift onLocal tz = .ok (onUtc, onShift))
    (hwdS : shiftWeekdaysStr rS offShift = .ok wdS) (hwdW : shiftWeekdaysStr rW onShift = .ok wdW)
    (hpgb : addMinutesHhmm onUtc 5 = .ok onPgb) (hdep : addMinutesHhmm onUtc 7 = .ok onDep)
    (hS : expandWeekdaysStr wdS = .ok A) (hW : expandWeekdaysStr wdW = .ok B) :
    ∃ objs, makeAllObjectsForTenant tenant offLocal onLocal weekdays sleepdays wakedays ns tz = .ok objs ∧
      ∀ g, layoutOf objs (tenant ++ "-" ++ g) =
        if g ∈ normalizeNamespaces ns then groupLayout tenant g (sameSet A B) else [] := by
  -- a group other than the datastores gets, in its namespace, what the days ask for
  have hgen : ∀ g b s p ex, g ≠ "datastores" → ∃ X,
      makeNsSplitDays tenant g b offUtc onDep wdS wdW s p [] [] ex = .ok X ∧
        X.map nameRole = groupLayout tenant g (sameSet A B) ∧
        ∀ o ∈ X, o.metadata.«namespace» = tenant ++ "-" ++ g := fun g b s p ex hg => by
    obtain ⟨X, hX, -⟩ := @makeNsSplitDays_run tenant g b offUtc onUtc onPgb onDep wdS wdW s p [] []
      ex A B hS hW (groupNs_ne hg)
    exact ⟨X, hX, makeNsSplitDays_layout hS hW hg hX, (makeNsSplitDays_namespace hX).2⟩
  obtain ⟨XA, hXA, hA⟩ := hgen "apps" "apps" false false [] (by decide)
  obtain ⟨XR, hXR, hR⟩ := hgen "rocket" "rocket" false false [] (by decide)
  obtain ⟨XI, hXI, hI⟩ := hgen "intelligence" "intelligence" false false [] (by decide)
  obtain ⟨XF, hXF, hF⟩ := hgen "airflowsso" "airflowsso" true true getExcludePgHdfsRefs (by decide)
  have hD := @makeDatastoresNativeDeploysSplitDays_eq tenant offUtc onDep onUtc onPgb wdS wdW A B hS hW
  refine ⟨_, makeAllObjectsForTenant_eq tenant ns hloc hoff hon hwdS hwdW hpgb hdep hD hXA hXR hXI
    hXF, layoutOf_selected ?_ (normalizeNamespaces_spec ns).2⟩
  simp only [List.mem_cons, List.mem_singleton, List.not_mem_nil, or_false]
  rintro q (rfl | rfl | rfl | rfl | rfl)
  · exact ⟨datastoresObjects_layout .., (makeDatastoresNativeDeploysSplitDays_namespace hD).2⟩
  · exact hA
  · exact hR
  · exact hI
  · exact hF

/-! ## Rejected specs -/

end TenantPower
