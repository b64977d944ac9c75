import TenantPower.Proofs.Assembler

/-!
# Proofs: what a run writes out

Before it dumps the objects, `to_yaml_docs` reads again, with `human_weekdays_to_kube`, every
`weekdays` that holds a letter. A run never writes one: each object carries the sleep or the wake
spec as `_shift_weekdays_str` writes it, day numbers and commas only (`shiftWeekdaysStr_no_letter`),
so the pass returns the objects of every run as they are
(`toYamlNormalize_makeAllObjectsForTenant`).
-/

namespace TenantPower

/-! ## The weekday pass -/

/-- The pass keeps objects whose `weekdays` have no letter. -/
theorem toYamlNormalize_eq_self :
    ∀ {objs : List SleepInfo}, (∀ o ∈ objs, hasSpanishLetter o.spec.weekdays.toList = false) →
      toYamlNormalize objs = .ok objs
  | [], _ => rfl
  | o :: os, h => by
    have ih := toYamlNormalize_eq_self fun o' ho' => h o' (List.mem_cons_of_mem o ho')
    simp only [toYamlNormalize, List.mapM_cons, h o (List.mem_cons_self o os), Bool.false_eq_true,
      if_false] at ih ⊢
    rw [ih]
    rfl

/-! ## The weekdays a run writes -/

/-- What `_shift_weekdays_str` writes has no letter. -/
theorem shiftWeekdaysStr_no_letter {r w : String} {k : Int} (h : shiftWeekdaysStr r k = .ok w) :
    hasSpanishLetter w.toList = false := by
  simp only [shiftWeekdaysStr] at h
  obtain ⟨L, -, h⟩ := bind_eq_ok.1 h
  cases h
  exact List.any_eq_false.2 fun c hc => by simp [(joinInts_weekdays mem_dedup_map_emod).1 c hc]

/-- What a run writes into an object's spec, from the times it converted and the specs it
shifted. -/
structure Written (offUtc onUtc onPgb onDep wdS wdW : String) (o : SleepInfo) : Prop where
  /-- The shifted sleep spec or the shifted wake spec. -/
  weekdays : o.spec.weekdays = wdS ∨ o.spec.weekdays = wdW
  /-- The off time or one of the three on times. -/
  sleepAt : o.spec.sleepAt ∈ [offUtc, onUtc, onPgb, onDep]
  /-- Nothing, or the workloads' on time. -/
  wakeUpAt : o.spec.wakeUpAt = none ∨ o.spec.wakeUpAt = some onDep

theorem makeNsSplitDays_written {tenant g b offUtc onUtc onPgb onDep wdS wdW : String} {s p : Bool}
    {sp wp : List PatchBlock} {ex : List ExcludeRef} {X : List SleepInfo}
    (h : makeNsSplitDays tenant g b offUtc onDep wdS wdW s p sp wp ex = .ok X) :
    ∀ o ∈ X, Written offUtc onUtc onPgb onDep wdS wdW o := by
  simp only [makeNsSplitDays] at h
  obtain ⟨A, -, h⟩ := bind_eq_ok.1 h
  obtain ⟨B, -, h⟩ := bind_eq_ok.1 h
  intro o ho
  split_ifs at h <;> cases h <;> simp only [List.mem_cons, List.mem_singleton, List.not_mem_nil,
    or_false] at ho <;> rcases ho with rfl | rfl <;> constructor <;> simp [crYaml, sleepinfoBase]

theorem datastoresObjects_written (tenant offUtc onUtc onPgb onDep wdS wdW : String) :
    ∀ o ∈ datastoresObjects tenant offUtc onDep onUtc onPgb wdS wdW,
      Written offUtc onUtc onPgb onDep wdS wdW o := by
  intro o ho
  simp only [datastoresObjects, List.mem_cons, List.mem_singleton, List.not_mem_nil, or_false] at ho
  rcases ho with rfl | rfl | rfl | rfl <;> constructor <;> simp [crYaml, sleepinfoBase]

/-- What `addIfAllowed` adds was built by its generator. -/
theorem addIfAllowed_mem {sel : List String} {g : String} {make : Except String (List SleepInfo)}
    {X : List SleepInfo} {o : SleepInfo} (h : addIfAllowed sel g make = .ok X) (ho : o ∈ X) :
    ∃ Y, make = .ok Y ∧ o ∈ Y := by
  unfold addIfAllowed at h
  split_ifs at h
  · exact ⟨X, h, ho⟩
  · cases h
    cases ho

section Selected
variable {sel : List String} {tenant offUtc onUtc onPgb onDep wdS wdW : String}
  {D XA XR XI XF : List SleepInfo}
  (hD : addIfAllowed sel "datastores"
    (makeDatastoresNativeDeploysSplitDays tenant offUtc onDep onUtc onPgb wdS wdW) = .ok D)
  (hXA : addIfAllowed sel "apps"
    (makeNsSplitDays tenant "apps" "apps" offUtc onDep wdS wdW false false [] [] []) = .ok XA)
  (hXR : addIfAllowed sel "rocket"
    (makeNsSplitDays tenant "rocket" "rocket" offUtc onDep wdS wdW false false [] [] []) = .ok XR)
  (hXI : addIfAllowed sel "intelligence" (makeNsSplitDays tenant "intelligence"
    "intelligence" offUtc onDep wdS wdW false false [] [] []) = .ok XI)
  (hXF : addIfAllowed sel "airflowsso" (makeNsSplitDays tenant "airflowsso"
    "airflowsso" offUtc onDep wdS wdW true true [] [] getExcludePgHdfsRefs) = .ok XF)
include hD hXA hXR hXI hXF

/-- An object the selected groups' generators add is a datastores object, or one that
`make_ns_split_days` builds for one of the other groups. -/
theorem selected_mem : ∀ o ∈ D ++ XA ++ XR ++ XI ++ XF,
    o ∈ datastoresObjects tenant offUtc onDep onUtc onPgb wdS wdW ∨
      ∃ g ∈ ["apps", "rocket", "intelligence", "airflowsso"], ∃ (s p : Bool) (ex : List ExcludeRef)
        (X : List SleepInfo), makeNsSplitDays tenant g g offUtc onDep wdS wdW s p [] [] ex = .ok X ∧
          o ∈ X := by
  simp only [List.mem_append]
  rintro o ((((ho | ho) | ho) | ho) | ho)
  · obtain ⟨Y, hY, ho⟩ := addIfAllowed_mem hD ho
    rw [makeDatastoresNativeDeploysSplitDays_ok hY] at ho
    exact .inl ho
  · exact .inr ⟨_, .head _, _, _, _, addIfAllowed_mem hXA ho⟩
  · exact .inr ⟨_, .tail _ (.head _), _, _, _, addIfAllowed_mem hXR ho⟩
  · exact .inr ⟨_, .tail _ (.tail _ (.head _)), _, _, _, addIfAllowed_mem hXI ho⟩
  · exact .inr ⟨_, .tail _ (.tail _ (.tail _ (.head _))), _, _, _, addIfAllowed_mem hXF ho⟩

/-- Every object the selected groups' generators add is written from the run's times and
shifted specs. -/
theorem selected_written : ∀ o ∈ D ++ XA ++ XR ++ XI ++ XF,
    Written offUtc onUtc onPgb onDep wdS wdW o := fun o ho => by
  rcases selected_mem hD hXA hXR hXI hXF o ho with ho | ⟨_, -, _, _, _, _, hX, ho⟩
  exacts [datastoresObjects_written _ _ _ _ _ _ _ o ho, makeNsSplitDays_written hX o ho]

end Selected

/-- No object of a run that succeeds has a letter in its `weekdays`. -/
theorem makeAllObjectsForTenant_no_letter {tenant offLocal onLocal weekdays : String}
    {sleepdays wakedays ns : Option String} {tz : FixedOffset} {objs : List SleepInfo}
    (h : makeAllObjectsForTenant tenant offLocal onLocal weekdays sleepdays wakedays ns tz = .ok objs) :
    ∀ o ∈ objs, hasSpanishLetter o.spec.weekdays.toList = false := by
  obtain ⟨_, _, _, _, _, _, _, _, _, _, -, -, -, hwdS, hwdW, -, -, D, XA, XR, XI, XF, hD, hXA,
    hXR, hXI, hXF, rfl⟩ := makeAllObjectsForTenant_ok_cases h
  intro o ho
  rcases (selected_written hD hXA hXR hXI hXF o ho).weekdays
    with he | he <;> rw [he]
  exacts [shiftWeekdaysStr_no_letter hwdS, shiftWeekdaysStr_no_letter hwdW]

/-- The weekday pass of `to_yaml_docs` returns the objects of every run that succeeds as they
are: it neither changes one nor raises. -/
theorem toYamlNormalize_makeAllObjectsForTenant (tenant offLocal onLocal weekdays : String)
    (sleepdays wakedays ns : Option String) (tz : FixedOffset) (objs : List SleepInfo)
    (h : makeAllObjectsForTenant tenant offLocal onLocal weekdays sleepdays wakedays ns tz = .ok objs) :
    toYamlNormalize objs = .ok objs :=
  toYamlNormalize_eq_self (makeAllObjectsForTenant_no_letter h)

/-- A run on spelled-out days, Monday to Friday and a Saturday sleep. -/
theorem toYamlNormalize_makeAllObjectsForTenant_names :
    ∃ objs, makeAllObjectsForTenant "acme" "22:00" "06:00" "Lunes-Viernes" (some "sábado") none
        none tzLocal = .ok objs ∧ toYamlNormalize objs = .ok objs :=
  ⟨_, rfl, toYamlNormalize_makeAllObjectsForTenant "acme" "22:00" "06:00" "Lunes-Viernes"
    (some "sábado") none none tzLocal _ rfl⟩

end TenantPower
