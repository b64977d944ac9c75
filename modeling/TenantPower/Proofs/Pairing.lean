import TenantPower.Proofs.Assembler

/-!
# Proofs: the pairs of a run

Every run that succeeds emits `WellPaired` objects (`makeAllObjectsForTenant_wellPaired`). Each
generator emits one namespace's objects: a single combined object, or one sleep object followed
by wake objects that share its `pair-id` (`wellPaired_single`, `wellPaired_pair`). The
namespaces of the groups differ, so the objects of the groups put together stay well paired
(`WellPaired.append`, `wellPaired_flatMap`).
-/

namespace TenantPower

/-! ## Putting objects together -/

theorem WellPaired.nil : WellPaired [] := by
  constructor <;> intro o ho <;> cases ho

/-- The objects of two sets of namespaces, each well paired, are well paired together. -/
theorem WellPaired.append {X Y : List SleepInfo} (hX : WellPaired X) (hY : WellPaired Y)
    (hsep : ∀ o ∈ X, ∀ o' ∈ Y, o.metadata.«namespace» ≠ o'.metadata.«namespace») :
    WellPaired (X ++ Y) := by
  -- two objects of one namespace come from the same side
  have hside : ∀ o₁ ∈ X ++ Y, ∀ o₂ ∈ X ++ Y,
      o₁.metadata.«namespace» = o₂.metadata.«namespace» → (o₁ ∈ X ∧ o₂ ∈ X) ∨ (o₁ ∈ Y ∧ o₂ ∈ Y) := by
    intro o₁ h₁ o₂ h₂ he
    rcases List.mem_append.1 h₁ with h₁ | h₁ <;> rcases List.mem_append.1 h₂ with h₂ | h₂
    · exact .inl ⟨h₁, h₂⟩
    · exact absurd he (hsep o₁ h₁ o₂ h₂)
    · exact absurd he.symm (hsep o₂ h₂ o₁ h₁)
    · exact .inr ⟨h₁, h₂⟩
  constructor
  · intro o ho
    exact (List.mem_append.1 ho).elim (hX.roles o) (hY.roles o)
  · intro o ho a ha
    rcases List.mem_append.1 ho with ho | ho
    · obtain ⟨o', ho', h⟩ := hX.findsSleep o ho a ha
      exact ⟨o', List.mem_append_left _ ho', h⟩
    · obtain ⟨o', ho', h⟩ := hY.findsSleep o ho a ha
      exact ⟨o', List.mem_append_right _ ho', h⟩
  · intro o₁ h₁ o₂ h₂ a₁ a₂ ha₁ ha₂ hr₁ hr₂ he
    rcases hside o₁ h₁ o₂ h₂ he with ⟨h₁, h₂⟩ | ⟨h₁, h₂⟩
    · exact hX.oneSleep o₁ h₁ o₂ h₂ a₁ a₂ ha₁ ha₂ hr₁ hr₂ he
    · exact hY.oneSleep o₁ h₁ o₂ h₂ a₁ a₂ ha₁ ha₂ hr₁ hr₂ he
  · intro o₁ h₁ o₂ h₂ hn he
    rcases hside o₁ h₁ o₂ h₂ he with ⟨h₁, h₂⟩ | ⟨h₁, h₂⟩
    · exact hX.combinedAlone o₁ h₁ o₂ h₂ hn he
    · exact hY.combinedAlone o₁ h₁ o₂ h₂ hn he
  · intro o ho
    exact (List.mem_append.1 ho).elim (hX.wakeUpAt o) (hY.wakeUpAt o)

/-- The objects of groups with different names, each well paired in the group's namespace. -/
theorem wellPaired_flatMap {tenant : String} :
    ∀ {groups : List (String × List SleepInfo)}, (groups.map Prod.fst).Nodup →
      (∀ q ∈ groups, WellPaired q.2 ∧ ∀ o ∈ q.2, o.metadata.«namespace» = tenant ++ "-" ++ q.1) →
      WellPaired (groups.flatMap Prod.snd)
  | [], _, _ => WellPaired.nil
  | q :: qs, hnd, hq => by
    rw [List.flatMap_cons]
    refine (hq q (List.mem_cons_self _ _)).1.append
      (wellPaired_flatMap (List.nodup_cons.1 hnd).2 fun q' h => hq q' (List.mem_cons_of_mem _ h))
      fun o ho o' ho' he => ?_
    obtain ⟨q', hq', ho'⟩ := List.mem_flatMap.1 ho'
    have hg : q.1 = q'.1 := groupNs_inj (((hq q (List.mem_cons_self _ _)).2 o ho).symm.trans
      (he.trans ((hq q' (List.mem_cons_of_mem _ hq')).2 o' ho')))
    exact (List.nodup_cons.1 hnd).1 (hg ▸ List.mem_map_of_mem _ hq')

/-! ## One namespace -/

/-- A combined object alone. -/
theorem wellPaired_single {o : SleepInfo} (h : o.metadata.annotations = none)
    (hw : o.spec.wakeUpAt ≠ none) : WellPaired [o] := by
  constructor <;> simp [h, hw]

/-- A sleep object followed by wake objects of its namespace that share its `pair-id`, none of them
with a `wakeUpAt`. -/
theorem wellPaired_pair {s : SleepInfo} {wakes : List SleepInfo} {pairId : String}
    (hs : s.metadata.annotations = some ⟨pairId, "sleep"⟩) (hsw : s.spec.wakeUpAt = none)
    (hw : ∀ o ∈ wakes, o.metadata.annotations = some ⟨pairId, "wake"⟩ ∧
      o.metadata.«namespace» = s.metadata.«namespace» ∧ o.spec.wakeUpAt = none) :
    WellPaired (s :: wakes) := by
  -- every object is the sleep object or a wake object of the pair
  have hann : ∀ o ∈ s :: wakes, ∃ role, o.metadata.annotations = some ⟨pairId, role⟩ ∧
      o.metadata.«namespace» = s.metadata.«namespace» ∧ o.spec.wakeUpAt = none ∧
      (role = "sleep" ∨ role = "wake") ∧ (role = "sleep" → o = s) := by
    intro o ho
    rcases List.mem_cons.1 ho with rfl | ho
    · exact ⟨"sleep", hs, rfl, hsw, .inl rfl, fun _ => rfl⟩
    · obtain ⟨ha, hns, hwk⟩ := hw o ho
      exact ⟨"wake", ha, hns, hwk, .inr rfl, fun h => absurd h (by decide)⟩
  constructor
  · intro o ho a ha
    obtain ⟨role, hr, -, -, hrole, -⟩ := hann o ho
    obtain rfl := Option.some.inj (ha.symm.trans hr)
    exact hrole
  · intro o ho a ha
    obtain ⟨role, hr, hns, -⟩ := hann o ho
    obtain rfl := Option.some.inj (ha.symm.trans hr)
    exact ⟨s, List.mem_cons_self _ _, hns.symm, hs⟩
  · intro o₁ h₁ o₂ h₂ a₁ a₂ ha₁ ha₂ hr₁ hr₂ _
    obtain ⟨r₁, e₁, -, -, -, hs₁⟩ := hann o₁ h₁
    obtain ⟨r₂, e₂, -, -, -, hs₂⟩ := hann o₂ h₂
    obtain rfl := Option.some.inj (ha₁.symm.trans e₁)
    obtain rfl := Option.some.inj (ha₂.symm.trans e₂)
    rw [hs₁ hr₁, hs₂ hr₂]
  · intro o₁ h₁ o₂ _ hn _
    obtain ⟨r₁, e₁, -⟩ := hann o₁ h₁
    cases hn.symm.trans e₁
  · intro o ho
    obtain ⟨r, e, -, hwk, -⟩ := hann o ho
    simp [e, hwk]

theorem datastoresObjects_wellPaired (tenant offUtc onDep onPgHdfs onPgb wdS wdW : String) :
    WellPaired (datastoresObjects tenant offUtc onDep onPgHdfs onPgb wdS wdW) :=
  wellPaired_pair rfl rfl (by simp [crYaml, meta, sleepinfoBase])

theorem makeNsSplitDays_wellPaired {tenant g b offUtc onDep wdS wdW : String} {s p : Bool}
    {sp wp : List PatchBlock} {ex : List ExcludeRef} {X : List SleepInfo}
    (h : makeNsSplitDays tenant g b offUtc onDep wdS wdW s p sp wp ex = .ok X) : WellPaired X := by
  simp only [makeNsSplitDays] at h
  obtain ⟨A, -, h⟩ := bind_eq_ok.1 h
  obtain ⟨B, -, h⟩ := bind_eq_ok.1 h
  by_cases hsame : sameSet A B = true
  · rw [if_pos hsame] at h
    cases h
    exact wellPaired_single rfl (by simp [crYaml, sleepinfoBase])
  · rw [if_neg hsame] at h
    cases h
    exact wellPaired_pair rfl rfl (by simp [crYaml, meta, sleepinfoBase])

/-! ## A run -/

/-- What `addIfAllowed` adds for a generator whose objects are well paired in the namespace
`ns`. -/
theorem addIfAllowed_wellPaired {sel : List String} {g ns : String}
    {make : Except String (List SleepInfo)} {X : List SleepInfo}
    (hmake : ∀ Y, make = .ok Y → WellPaired Y ∧ ∀ o ∈ Y, o.metadata.«namespace» = ns)
    (h : addIfAllowed sel g make = .ok X) :
    WellPaired X ∧ ∀ o ∈ X, o.metadata.«namespace» = ns := by
  unfold addIfAllowed at h
  split_ifs at h
  · exact hmake X h
  · cases h
    exact ⟨WellPaired.nil, fun _ h => by cases h⟩

/-- The objects of every run that succeeds are well paired. -/
theorem makeAllObjectsForTenant_wellPaired (tenant offLocal onLocal weekdays : String)
    (sleepdays wakedays ns : Option String) (tz : FixedOffset) (objs : List SleepInfo)
    (h : makeAllObjectsForTenant tenant offLocal onLocal weekdays sleepdays wakedays ns tz = .ok objs) :
    WellPaired objs := by
  obtain ⟨_, _, _, _, _, _, D, XA, XR, XI, XF, hD, hXA, hXR, hXI, hXF, rfl⟩ :=
    makeAllObjectsForTenant_ok_inv h
  have hgen : ∀ {g b offUtc onDep wdS wdW : String} {s p : Bool} {sp wp : List PatchBlock}
      {ex : List ExcludeRef} (Y : List SleepInfo),
      makeNsSplitDays tenant g b offUtc onDep wdS wdW s p sp wp ex = .ok Y →
        WellPaired Y ∧ ∀ o ∈ Y, o.metadata.«namespace» = tenant ++ "-" ++ g :=
    fun _ hY => ⟨makeNsSplitDays_wellPaired hY, (makeNsSplitDays_namespace hY).2⟩
  have hall := @wellPaired_flatMap tenant
    [("datastores", D), ("apps", XA), ("rocket", XR), ("intelligence", XI), ("airflowsso", XF)]
    (show (["datastores", "apps", "rocket", "intelligence", "airflowsso"] : List String).Nodup by
      decide) (by
      simp only [List.mem_cons, List.mem_singleton, List.not_mem_nil, or_false]
      rintro q (rfl | rfl | rfl | rfl | rfl)
      · exact addIfAllowed_wellPaired (fun Y hY => ⟨makeDatastoresNativeDeploysSplitDays_ok hY ▸
          datastoresObjects_wellPaired .., (makeDatastoresNativeDeploysSplitDays_namespace hY).2⟩) hD
      · exact addIfAllowed_wellPaired (hgen) hXA
      · exact addIfAllowed_wellPaired (hgen) hXR
      · exact addIfAllowed_wellPaired (hgen) hXI
      · exact addIfAllowed_wellPaired (hgen) hXF)
  simpa only [List.flatMap_cons, List.flatMap_nil, List.append_nil, List.append_assoc] using hall

/-- A run whose sleep days, Friday only, differ from its wake days, Monday to Friday. -/
theorem makeAllObjectsForTenant_wellPaired_friday :
    ∃ objs, makeAllObjectsForTenant "acme" "22:00" "06:00" "lunes-viernes" (some "viernes") none none
        tzLocal = .ok objs ∧ WellPaired objs :=
  ⟨_, rfl, makeAllObjectsForTenant_wellPaired "acme" "22:00" "06:00" "lunes-viernes" (some "viernes")
    none none tzLocal _ rfl⟩

end TenantPower
