import TenantPower.Kubectl
import TenantPower.Proofs.Assembler

/-!
# Proofs: reconcile and cleanup

`reconcile_sleepinfos` and `cleanup_orphan_secrets` read `--namespaces` with their own code, which
keeps only exact group names and does nothing when none is left, while `normalize_namespaces`
lowercases the names and falls back to every group. Their disagreement only ever goes one way:
every group the two visit is one the run generated (`targetSuffixes_subset`). Both functions only
delete, and only in the groups they visit (`mem_reconcileSleepinfos`, `mem_cleanupOrphanSecrets`),
and reconcile spares every name the run generated (`reconcileSleepinfos_keeps_desired`).
-/

namespace TenantPower

/-! ## The groups the two functions visit -/

/-- A group's name is in lowercase. -/
theorem lower_validSuffix : ∀ g ∈ validSuffixes, lower g.toList = g.toList := by decide

/-- Every group that reconcile and cleanup visit is selected by `normalize_namespaces`. -/
theorem targetSuffixes_subset {ns : Option String} {g : String} (h : g ∈ targetSuffixes ns) :
    g ∈ normalizeNamespaces ns := by
  cases ns with
  | none => exact h
  | some s =>
    by_cases hs : s = ""
    · simpa [targetSuffixes, normalizeNamespaces, hs] using h
    · simp only [targetSuffixes, hs, if_false, List.mem_filter, List.mem_map, Bool.and_eq_true,
        bne_iff_ne, ne_eq, decide_eq_true_eq] at h
      obtain ⟨⟨p, hp, rfl⟩, hne, hv⟩ := h
      have hp0 : p ≠ [] := by
        rintro rfl
        exact hne rfl
      have hl : lower p = p := lower_validSuffix _ hv
      have hmem : String.mk p ∈ (splitCommaSpace (strip s.toList)).filterMap fun p =>
          if p = [] then none
          else if String.mk (lower p) ∈ validSuffixes then some (String.mk (lower p)) else none :=
        List.mem_filterMap.2 ⟨p, hp, by simp [hp0, hl, hv]⟩
      simp only [normalizeNamespaces, hs, if_false]
      rw [if_neg (List.ne_nil_of_mem hmem)]
      exact hmem

/-! ## What the two functions delete -/

theorem mem_reconcileNamespace {ns : String} {desired : List String} {data : Option (List String)}
    {call : KubectlCall} :
    call ∈ reconcileNamespace ns desired data ↔ ∃ items, data = some items ∧ ∃ name ∈ items,
      name ∉ desired ∧ (call = .deleteSleepInfo ns name ∨ call = .deleteSecret ns ("sleepinfo-" ++ name)) := by
  cases data with
  | none => simp [reconcileNamespace]
  | some items =>
    simp only [reconcileNamespace, List.mem_flatMap, Option.some.injEq, exists_eq_left']
    refine exists_congr fun name => and_congr_right fun _ => ?_
    split_ifs with hd <;> simp [hd]

/-- `reconcile_sleepinfos` deletes, in a group it visits, each listed SleepInfo whose name the run
did not generate, and that SleepInfo's Secret. -/
theorem mem_reconcileSleepinfos {tenant : String} {objs : List SleepInfo} {ns : Option String}
    {getSleepinfo : String → Option (List String)} {call : KubectlCall} :
    call ∈ reconcileSleepinfos tenant objs ns getSleepinfo ↔
      ∃ g ∈ targetSuffixes ns, ∃ items, getSleepinfo (tenant ++ "-" ++ g) = some items ∧
        ∃ name ∈ items, name ∉ objs.map (·.metadata.name) ∧
          (call = .deleteSleepInfo (tenant ++ "-" ++ g) name ∨
            call = .deleteSecret (tenant ++ "-" ++ g) ("sleepinfo-" ++ name)) := by
  simp only [reconcileSleepinfos, List.mem_flatMap, mem_reconcileNamespace]

theorem mem_cleanupNamespace {ns : String} {secretsData sleepinfoData : Option (List String)}
    {call : KubectlCall} :
    call ∈ cleanupNamespace ns secretsData sleepinfoData ↔ ∃ secrets, secretsData = some secrets ∧
      ∃ s ∈ secrets, "sleepinfo-".toList.isPrefixOf s.toList = true ∧
        sleepinfoNameOf s ∉ sleepinfoData.getD [] ∧ call = .deleteSecret ns s := by
  cases secretsData with
  | none => simp [cleanupNamespace]
  | some secrets =>
    simp only [cleanupNamespace, List.mem_flatMap, Option.some.injEq, exists_eq_left']
    refine exists_congr fun s => and_congr_right fun _ => ?_
    split_ifs with hd
    · simp only [Bool.and_eq_true, Bool.not_eq_true', decide_eq_false_iff_not] at hd
      simp only [List.mem_singleton, hd.1, hd.2, not_false_eq_true, true_and]
    · simp only [Bool.and_eq_true, Bool.not_eq_true', decide_eq_false_iff_not, not_and] at hd
      simp only [List.not_mem_nil, false_iff, not_and]
      exact fun hp hn _ => hd hp hn

/-- `cleanup_orphan_secrets` deletes, in a group it visits, each listed `sleepinfo-<name>` Secret
whose `<name>` the SleepInfo listing does not show; a failed listing shows nothing. -/
theorem mem_cleanupOrphanSecrets {tenant : String} {ns : Option String}
    {getSecrets getSleepinfo : String → Option (List String)} {call : KubectlCall} :
    call ∈ cleanupOrphanSecrets tenant ns getSecrets getSleepinfo ↔
      ∃ g ∈ targetSuffixes ns, ∃ secrets, getSecrets (tenant ++ "-" ++ g) = some secrets ∧
        ∃ s ∈ secrets, "sleepinfo-".toList.isPrefixOf s.toList = true ∧
          sleepinfoNameOf s ∉ (getSleepinfo (tenant ++ "-" ++ g)).getD [] ∧
          call = .deleteSecret (tenant ++ "-" ++ g) s := by
  simp only [cleanupOrphanSecrets, List.mem_flatMap, mem_cleanupNamespace]

/-- Reconcile only deletes, in the groups it visits. -/
theorem reconcileSleepinfos_deletes_in_targets {tenant : String} {objs : List SleepInfo}
    {ns : Option String} {getSleepinfo : String → Option (List String)} {call : KubectlCall}
    (h : call ∈ reconcileSleepinfos tenant objs ns getSleepinfo) :
    ∃ g ∈ targetSuffixes ns, ∃ x, call = .deleteSleepInfo (tenant ++ "-" ++ g) x ∨
      call = .deleteSecret (tenant ++ "-" ++ g) x := by
  obtain ⟨g, hg, -, -, name, -, -, hcall⟩ := mem_reconcileSleepinfos.1 h
  rcases hcall with hcall | hcall
  · exact ⟨g, hg, name, .inl hcall⟩
  · exact ⟨g, hg, _, .inr hcall⟩

/-- The cleanup only deletes Secrets, in the groups it visits. -/
theorem cleanupOrphanSecrets_deletes_in_targets {tenant : String} {ns : Option String}
    {getSecrets getSleepinfo : String → Option (List String)} {call : KubectlCall}
    (h : call ∈ cleanupOrphanSecrets tenant ns getSecrets getSleepinfo) :
    ∃ g ∈ targetSuffixes ns, ∃ x, call = .deleteSecret (tenant ++ "-" ++ g) x := by
  obtain ⟨g, hg, -, -, s, -, -, -, hcall⟩ := mem_cleanupOrphanSecrets.1 h
  exact ⟨g, hg, s, hcall⟩

/-- Reconcile never deletes a SleepInfo whose name the run generated, nor that name's Secret. -/
theorem reconcileSleepinfos_keeps_desired {tenant : String} {objs : List SleepInfo}
    {ns : Option String} {getSleepinfo : String → Option (List String)} {name : String}
    (hd : name ∈ objs.map (·.metadata.name)) (n : String) :
    KubectlCall.deleteSleepInfo n name ∉ reconcileSleepinfos tenant objs ns getSleepinfo ∧
      KubectlCall.deleteSecret n ("sleepinfo-" ++ name) ∉ reconcileSleepinfos tenant objs ns getSleepinfo := by
  constructor <;> intro h <;> obtain ⟨g, -, -, -, x, -, hx, hcall⟩ := mem_reconcileSleepinfos.1 h
  · rcases hcall with hcall | hcall <;> cases hcall
    exact hx hd
  · rcases hcall with hcall | hcall
    · cases hcall
    · obtain ⟨-, he⟩ := KubectlCall.deleteSecret.inj hcall
      have hx' : name.data = x.data := by
        simpa only [String.data_append, List.append_cancel_left_eq] using congrArg String.data he
      exact hx (String.ext hx' ▸ hd)

/-- Reconcile and cleanup visit only groups that the run generated objects for, delete only in
those groups, and never delete a SleepInfo that the run generated or its restore-patch Secret. -/
theorem reconcileSleepinfos_spares_generated (tenant offLocal onLocal weekdays : String)
    (sleepdays wakedays ns : Option String) (tz : FixedOffset) (objs : List SleepInfo)
    (h : makeAllObjectsForTenant tenant offLocal onLocal weekdays sleepdays wakedays ns tz = .ok objs)
    (getSecrets getSleepinfo : String → Option (List String)) :
    (∀ g ∈ targetSuffixes ns, g ∈ normalizeNamespaces ns ∧
      ∃ o ∈ objs, o.metadata.«namespace» = tenant ++ "-" ++ g) ∧
    (∀ call ∈ reconcileSleepinfos tenant objs ns getSleepinfo ++
        cleanupOrphanSecrets tenant ns getSecrets getSleepinfo,
      ∃ g ∈ targetSuffixes ns, ∃ x, call = .deleteSleepInfo (tenant ++ "-" ++ g) x ∨
        call = .deleteSecret (tenant ++ "-" ++ g) x) ∧
    ∀ o ∈ objs, ∀ n,
      KubectlCall.deleteSleepInfo n o.metadata.name ∉ reconcileSleepinfos tenant objs ns getSleepinfo ∧
      KubectlCall.deleteSecret n ("sleepinfo-" ++ o.metadata.name) ∉
        reconcileSleepinfos tenant objs ns getSleepinfo := by
  refine ⟨fun g hg => ⟨targetSuffixes_subset hg,
    (makeAllObjectsForTenant_namespaces h g).2 (targetSuffixes_subset hg)⟩, fun call hcall => ?_,
    fun o ho => reconcileSleepinfos_keeps_desired (List.mem_map_of_mem _ ho)⟩
  rcases List.mem_append.1 hcall with hr | hc
  · exact reconcileSleepinfos_deletes_in_targets hr
  · obtain ⟨g, hg, x, hx⟩ := cleanupOrphanSecrets_deletes_in_targets hc
    exact ⟨g, hg, x, .inr hx⟩

/-- A selection in another case, `APPS,rocket`: reconcile visits the rocket group only. -/
theorem reconcileSleepinfos_spares_generated_uppercase :
    ∃ objs, makeAllObjectsForTenant "acme" "22:00" "06:00" weekdaysDefault none none
        (some "APPS,rocket") tzLocal = .ok objs ∧
      (∀ g ∈ targetSuffixes (some "APPS,rocket"), g ∈ normalizeNamespaces (some "APPS,rocket") ∧
        ∃ o ∈ objs, o.metadata.«namespace» = "acme" ++ "-" ++ g) ∧
      (∀ call ∈ reconcileSleepinfos "acme" objs (some "APPS,rocket") (fun _ => some ["acme-rocket", "old"]) ++
          cleanupOrphanSecrets "acme" (some "APPS,rocket") (fun _ => some ["sleepinfo-old"])
            (fun _ => some ["acme-rocket", "old"]),
        ∃ g ∈ targetSuffixes (some "APPS,rocket"), ∃ x, call = .deleteSleepInfo ("acme" ++ "-" ++ g) x ∨
          call = .deleteSecret ("acme" ++ "-" ++ g) x) ∧
      ∀ o ∈ objs, ∀ n,
        KubectlCall.deleteSleepInfo n o.metadata.name ∉
          reconcileSleepinfos "acme" objs (some "APPS,rocket") (fun _ => some ["acme-rocket", "old"]) ∧
        KubectlCall.deleteSecret n ("sleepinfo-" ++ o.metadata.name) ∉
          reconcileSleepinfos "acme" objs (some "APPS,rocket") (fun _ => some ["acme-rocket", "old"]) :=
  ⟨_, rfl, reconcileSleepinfos_spares_generated "acme" "22:00" "06:00" weekdaysDefault none none
    (some "APPS,rocket") tzLocal _ rfl _ _⟩

/-- Reconcile touches nothing in a namespace outside the selected groups. -/
theorem reconcileSleepinfos_outside {tenant : String} {objs : List SleepInfo} {ns : Option String}
    {getSleepinfo : String → Option (List String)} {n : String}
    (hn : ∀ g ∈ normalizeNamespaces ns, n ≠ tenant ++ "-" ++ g) (x : String) :
    KubectlCall.deleteSleepInfo n x ∉ reconcileSleepinfos tenant objs ns getSleepinfo ∧
      KubectlCall.deleteSecret n x ∉ reconcileSleepinfos tenant objs ns getSleepinfo := by
  constructor <;> intro h <;> obtain ⟨g, hg, y, hy | hy⟩ := reconcileSleepinfos_deletes_in_targets h
  · exact hn g (targetSuffixes_subset hg) (KubectlCall.deleteSleepInfo.inj hy).1
  · cases hy
  · cases hy
  · exact hn g (targetSuffixes_subset hg) (KubectlCall.deleteSecret.inj hy).1

/-- The cleanup touches nothing in a namespace outside the selected groups. -/
theorem cleanupOrphanSecrets_outside {tenant : String} {ns : Option String}
    {getSecrets getSleepinfo : String → Option (List String)} {n : String}
    (hn : ∀ g ∈ normalizeNamespaces ns, n ≠ tenant ++ "-" ++ g) (x : String) :
    KubectlCall.deleteSecret n x ∉ cleanupOrphanSecrets tenant ns getSecrets getSleepinfo := by
  intro h
  obtain ⟨g, hg, y, hy⟩ := cleanupOrphanSecrets_deletes_in_targets h
  exact hn g (targetSuffixes_subset hg) (KubectlCall.deleteSecret.inj hy).1

/-- The SleepInfo a `sleepinfo-<name>` Secret belongs to is `<name>`. -/
@[simp] theorem sleepinfoNameOf_append (name : String) : sleepinfoNameOf ("sleepinfo-" ++ name) = name := by
  rfl

/-- Reconcile applies nothing. -/
theorem apply_not_mem_reconcile {tenant : String} {objs : List SleepInfo} {ns : Option String}
    {getSleepinfo : String → Option (List String)} (objs' : List SleepInfo) :
    KubectlCall.apply objs' ∉ reconcileSleepinfos tenant objs ns getSleepinfo := fun h => by
  obtain ⟨g, -, x, hx | hx⟩ := reconcileSleepinfos_deletes_in_targets h <;> cases hx

/-- The cleanup applies nothing. -/
theorem apply_not_mem_cleanup {tenant : String} {ns : Option String}
    {getSecrets getSleepinfo : String → Option (List String)} (objs' : List SleepInfo) :
    KubectlCall.apply objs' ∉ cleanupOrphanSecrets tenant ns getSecrets getSleepinfo := fun h => by
  obtain ⟨g, -, x, hx⟩ := cleanupOrphanSecrets_deletes_in_targets h
  cases hx

/-- The cleanup never deletes a SleepInfo. -/
theorem deleteSleepInfo_not_mem_cleanup {tenant : String} {ns : Option String}
    {getSecrets getSleepinfo : String → Option (List String)} (n x : String) :
    KubectlCall.deleteSleepInfo n x ∉ cleanupOrphanSecrets tenant ns getSecrets getSleepinfo := by
  intro h
  obtain ⟨g, -, y, hy⟩ := cleanupOrphanSecrets_deletes_in_targets h
  cases hy

end TenantPower
