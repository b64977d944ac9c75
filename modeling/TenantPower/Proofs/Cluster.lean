import TenantPower.Proofs.Kubectl

/-!
# Proofs: a whole `--apply` run on the cluster

A run applies the generated objects, then runs the reconcile calls against the cluster the apply
left, then the cleanup calls against the cluster the reconcile left (`applyRun_ok`). Reconcile
and cleanup only delete, so what a run leaves follows from frame lemmas over the calls
(`mem_run_sleepInfos`, `mem_run_sleepInfos_inv` and their Secret counterparts).

The run keeps the SleepInfos it applied and everything outside the selected groups, and it keeps
the restore-patch Secret of a generated SleepInfo when the SleepInfo listing of its namespace
works (`applyRun_frame`). Where the listings of a visited namespace work, the run also does what
it is for: every SleepInfo left there has a generated name (reconcile compares names with those of
all generated objects, whatever their namespace), and every `sleepinfo-<name>` Secret left there
has its SleepInfo (`applyRun_reconciles`). So a second run with the same arguments deletes nothing
and changes no membership (`applyRun_idempotent`). When the SleepInfo listing fails, the cleanup
reads it as "no SleepInfos" and deletes the Secret anyway (`applyRun_failed_listing`).
-/

namespace TenantPower

/-- `apply` adds the objects' SleepInfos. -/
@[simp] theorem Cluster.exec_apply_sleepInfos (c : Cluster) (objs : List SleepInfo) :
    (c.exec (.apply objs)).sleepInfos =
      objs.map (fun o => (o.metadata.«namespace», o.metadata.name)) ++ c.sleepInfos := rfl

/-- `apply` leaves the Secrets alone. -/
@[simp] theorem Cluster.exec_apply_secrets (c : Cluster) (objs : List SleepInfo) :
    (c.exec (.apply objs)).secrets = c.secrets := rfl

@[simp] theorem Cluster.run_nil (c : Cluster) : c.run [] = c := rfl

/-! ## Calls on the cluster -/

/-- A SleepInfo stays through calls that do not delete it. -/
theorem mem_run_sleepInfos {p : String × String} :
    ∀ {c : Cluster} {calls : List KubectlCall}, p ∈ c.sleepInfos →
      KubectlCall.deleteSleepInfo p.1 p.2 ∉ calls → p ∈ (c.run calls).sleepInfos
  | _, [], hp, _ => hp
  | c, call :: calls, hp, h => by
    have hstep : p ∈ (c.exec call).sleepInfos := by
      cases call with
      | apply objs => exact List.mem_append_right _ hp
      | deleteSleepInfo n x =>
        have hne : p ≠ (n, x) := by
          rintro rfl
          exact h (List.mem_cons_self _ _)
        simpa [Cluster.exec, hne] using hp
      | deleteSecret n x => exact hp
    exact @mem_run_sleepInfos p (c.exec call) calls hstep fun hc => h (List.mem_cons_of_mem _ hc)

/-- A Secret stays through calls that do not delete it. -/
theorem mem_run_secrets {p : String × String} :
    ∀ {c : Cluster} {calls : List KubectlCall}, p ∈ c.secrets →
      KubectlCall.deleteSecret p.1 p.2 ∉ calls → p ∈ (c.run calls).secrets
  | _, [], hp, _ => hp
  | c, call :: calls, hp, h => by
    have hstep : p ∈ (c.exec call).secrets := by
      cases call with
      | apply objs => exact hp
      | deleteSleepInfo n x => exact hp
      | deleteSecret n x =>
        have hne : p ≠ (n, x) := by
          rintro rfl
          exact h (List.mem_cons_self _ _)
        simpa [Cluster.exec, hne] using hp
    exact @mem_run_secrets p (c.exec call) calls hstep fun hc => h (List.mem_cons_of_mem _ hc)

/-- A SleepInfo present after calls that apply nothing was there before and was not deleted. -/
theorem mem_run_sleepInfos_inv {p : String × String} :
    ∀ {c : Cluster} {calls : List KubectlCall}, (∀ objs, KubectlCall.apply objs ∉ calls) →
      p ∈ (c.run calls).sleepInfos → p ∈ c.sleepInfos ∧ KubectlCall.deleteSleepInfo p.1 p.2 ∉ calls
  | _, [], _, hp => ⟨hp, List.not_mem_nil _⟩
  | c, call :: calls, hno, hp => by
    obtain ⟨hp', hnot⟩ := @mem_run_sleepInfos_inv p (c.exec call) calls
      (fun objs h => hno objs (List.mem_cons_of_mem _ h)) hp
    cases call with
    | apply objs => exact absurd (List.mem_cons_self _ _) (hno objs)
    | deleteSleepInfo n x =>
      simp only [Cluster.exec, List.mem_filter, bne_iff_ne, ne_eq] at hp'
      refine ⟨hp'.1, fun h => ?_⟩
      rcases List.mem_cons.1 h with h | h
      · exact hp'.2 (Prod.ext (KubectlCall.deleteSleepInfo.inj h).1 (KubectlCall.deleteSleepInfo.inj h).2)
      · exact hnot h
    | deleteSecret n x =>
      exact ⟨hp', fun h => (List.mem_cons.1 h).elim (fun h => by cases h) hnot⟩

/-- A Secret present after some calls was there before and was not deleted: nothing creates a
Secret. -/
theorem mem_run_secrets_inv {p : String × String} :
    ∀ {c : Cluster} {calls : List KubectlCall}, p ∈ (c.run calls).secrets →
      p ∈ c.secrets ∧ KubectlCall.deleteSecret p.1 p.2 ∉ calls
  | _, [], hp => ⟨hp, List.not_mem_nil _⟩
  | c, call :: calls, hp => by
    obtain ⟨hp', hnot⟩ := @mem_run_secrets_inv p (c.exec call) calls hp
    cases call with
    | apply objs => exact ⟨hp', fun h => (List.mem_cons.1 h).elim (fun h => by cases h) hnot⟩
    | deleteSleepInfo n x => exact ⟨hp', fun h => (List.mem_cons.1 h).elim (fun h => by cases h) hnot⟩
    | deleteSecret n x =>
      simp only [Cluster.exec, List.mem_filter, bne_iff_ne, ne_eq] at hp'
      refine ⟨hp'.1, fun h => ?_⟩
      rcases List.mem_cons.1 h with h | h
      · exact hp'.2 (Prod.ext (KubectlCall.deleteSecret.inj h).1 (KubectlCall.deleteSecret.inj h).2)
      · exact hnot h

/-- The names a listing of namespace `n` shows. -/
theorem mem_listing {l : List (String × String)} {n x : String} :
    x ∈ (l.filter (·.1 == n)).map (·.2) ↔ (n, x) ∈ l := by
  simp only [List.mem_map, List.mem_filter, beq_iff_eq]
  constructor
  · rintro ⟨⟨m, y⟩, ⟨hy, rfl⟩, rfl⟩
    exact hy
  · intro h
    exact ⟨(n, x), ⟨h, rfl⟩, rfl⟩

/-- A SleepInfo listing that works shows the names of the namespace's SleepInfos. -/
theorem Cluster.getSleepinfo_ok {c : Cluster} {f : Faults} {n : String} (hf : f.getSleepinfo n = false) :
    c.getSleepinfo f n = some ((c.sleepInfos.filter (·.1 == n)).map (·.2)) := by
  simp [Cluster.getSleepinfo, hf]

/-- A Secret listing that works shows the names of the namespace's Secrets. -/
theorem Cluster.getSecrets_ok {c : Cluster} {f : Faults} {n : String} (hf : f.getSecrets n = false) :
    c.getSecrets f n = some ((c.secrets.filter (·.1 == n)).map (·.2)) := by
  simp [Cluster.getSecrets, hf]

/-! ## A run -/

/-- A run that succeeds: the generated objects, applied, then the reconcile calls on the cluster
the apply left, then the cleanup calls on the cluster the reconcile left. -/
theorem applyRun_ok {tenant offLocal onLocal weekdays : String} {sleepdays wakedays ns : Option String}
    {tz : FixedOffset} {f : Faults} {c c' : Cluster}
    (h : applyRun tenant offLocal onLocal weekdays sleepdays wakedays ns tz f c = .ok c') :
    ∃ objs, makeAllObjectsForTenant tenant offLocal onLocal weekdays sleepdays wakedays ns tz = .ok objs ∧
      ∃ c2, c2 = (c.exec (.apply objs)).run
          (reconcileSleepinfos tenant objs ns ((c.exec (.apply objs)).getSleepinfo f)) ∧
        c' = c2.run (cleanupOrphanSecrets tenant ns (c2.getSecrets f) (c2.getSleepinfo f)) := by
  obtain ⟨objs, hobjs, h⟩ := bind_eq_ok.1 h
  cases hf : f.apply <;> simp only [hf, Bool.false_eq_true, if_false, if_true] at h
  · exact ⟨objs, hobjs, _, rfl, (Except.ok.inj h).symm⟩
  · cases h

section Run

variable {tenant offLocal onLocal weekdays : String} {sleepdays wakedays ns : Option String}
  {tz : FixedOffset} {f : Faults} {c c' : Cluster} {objs : List SleepInfo}

/-- A run keeps every SleepInfo it generated. -/
theorem applyRun_generated
    (h : applyRun tenant offLocal onLocal weekdays sleepdays wakedays ns tz f c = .ok c')
    (hobjs : makeAllObjectsForTenant tenant offLocal onLocal weekdays sleepdays wakedays ns tz = .ok objs) :
    ∀ o ∈ objs, (o.metadata.«namespace», o.metadata.name) ∈ c'.sleepInfos := by
  obtain ⟨objs', hobjs', c2, hc2, rfl⟩ := applyRun_ok h
  obtain rfl : objs' = objs := Except.ok.inj (hobjs'.symm.trans hobjs)
  -- the apply adds it, reconcile spares its name, and the cleanup deletes no SleepInfo
  intro o ho
  refine mem_run_sleepInfos (hc2 ▸ mem_run_sleepInfos ?_
    (reconcileSleepinfos_keeps_desired (List.mem_map_of_mem _ ho) _).1) (deleteSleepInfo_not_mem_cleanup _ _)
  exact List.mem_append_left _ (List.mem_map_of_mem _ ho)

/-- A run keeps the restore-patch Secret of a SleepInfo it generated when the SleepInfo listing
of its namespace works. -/
theorem applyRun_restore
    (h : applyRun tenant offLocal onLocal weekdays sleepdays wakedays ns tz f c = .ok c')
    (hobjs : makeAllObjectsForTenant tenant offLocal onLocal weekdays sleepdays wakedays ns tz = .ok objs) :
    ∀ o ∈ objs, f.getSleepinfo o.metadata.«namespace» = false →
      (o.metadata.«namespace», "sleepinfo-" ++ o.metadata.name) ∈ c.secrets →
      (o.metadata.«namespace», "sleepinfo-" ++ o.metadata.name) ∈ c'.secrets := by
  obtain ⟨objs', hobjs', c2, hc2, rfl⟩ := applyRun_ok h
  obtain rfl : objs' = objs := Except.ok.inj (hobjs'.symm.trans hobjs)
  intro o ho hf hs
  have hgen : (o.metadata.«namespace», o.metadata.name) ∈ c2.sleepInfos :=
    hc2 ▸ mem_run_sleepInfos (List.mem_append_left _ (List.mem_map_of_mem _ ho))
      (reconcileSleepinfos_keeps_desired (List.mem_map_of_mem _ ho) _).1
  refine mem_run_secrets (hc2 ▸ mem_run_secrets hs
    (reconcileSleepinfos_keeps_desired (List.mem_map_of_mem _ ho) _).2) fun hc => ?_
  -- the cleanup would need a listing of the namespace without the generated object
  obtain ⟨g, -, -, -, s, -, -, hn, hcall⟩ := mem_cleanupOrphanSecrets.1 hc
  obtain ⟨hns, rfl⟩ := KubectlCall.deleteSecret.inj hcall
  rw [sleepinfoNameOf_append, ← hns, Cluster.getSleepinfo_ok hf, Option.getD_some, mem_listing] at hn
  exact hn hgen

/-- A run touches no SleepInfo and no Secret outside the selected groups. -/
theorem applyRun_outside
    (h : applyRun tenant offLocal onLocal weekdays sleepdays wakedays ns tz f c = .ok c') :
    ∀ n, (∀ g ∈ normalizeNamespaces ns, n ≠ tenant ++ "-" ++ g) → ∀ x,
      ((n, x) ∈ c.sleepInfos → (n, x) ∈ c'.sleepInfos) ∧ ((n, x) ∈ c.secrets → (n, x) ∈ c'.secrets) := by
  obtain ⟨objs, -, c2, hc2, rfl⟩ := applyRun_ok h
  refine fun n hn x => ⟨fun hx => ?_, fun hx => ?_⟩
  · exact mem_run_sleepInfos (hc2 ▸ mem_run_sleepInfos (List.mem_append_right _ hx)
      (reconcileSleepinfos_outside hn x).1) (deleteSleepInfo_not_mem_cleanup _ _)
  · exact mem_run_secrets (hc2 ▸ mem_run_secrets hx (reconcileSleepinfos_outside hn x).2)
      (cleanupOrphanSecrets_outside hn x)

/-- A SleepInfo left by a run was there after the apply, and reconcile did not delete it: the
cleanup deletes only Secrets. -/
theorem applyRun_sleepInfo_applied
    (h : applyRun tenant offLocal onLocal weekdays sleepdays wakedays ns tz f c = .ok c')
    (hobjs : makeAllObjectsForTenant tenant offLocal onLocal weekdays sleepdays wakedays ns tz = .ok objs)
    {p : String × String} (hp : p ∈ c'.sleepInfos) :
    p ∈ (c.exec (.apply objs)).sleepInfos ∧ KubectlCall.deleteSleepInfo p.1 p.2 ∉
      reconcileSleepinfos tenant objs ns ((c.exec (.apply objs)).getSleepinfo f) := by
  obtain ⟨objs', hobjs', c2, hc2, rfl⟩ := applyRun_ok h
  obtain rfl : objs' = objs := Except.ok.inj (hobjs'.symm.trans hobjs)
  obtain ⟨hp2, -⟩ := mem_run_sleepInfos_inv apply_not_mem_cleanup hp
  rw [hc2] at hp2
  exact mem_run_sleepInfos_inv apply_not_mem_reconcile hp2

/-- A SleepInfo left by a run, in a group the run visits whose SleepInfo listing works, was there
after the apply and has a generated name: reconcile read it in that listing and kept it. -/
theorem applyRun_sleepInfo_kept
    (h : applyRun tenant offLocal onLocal weekdays sleepdays wakedays ns tz f c = .ok c')
    (hobjs : makeAllObjectsForTenant tenant offLocal onLocal weekdays sleepdays wakedays ns tz = .ok objs)
    {g x : String} (hg : g ∈ targetSuffixes ns) (hf : f.getSleepinfo (tenant ++ "-" ++ g) = false)
    (hx : (tenant ++ "-" ++ g, x) ∈ c'.sleepInfos) :
    (tenant ++ "-" ++ g, x) ∈ (c.exec (.apply objs)).sleepInfos ∧ x ∈ objs.map (·.metadata.name) := by
  obtain ⟨hx1, hnot⟩ := applyRun_sleepInfo_applied h hobjs hx
  exact ⟨hx1, by_contra fun hd => hnot (mem_reconcileSleepinfos.2 ⟨g, hg, _,
    Cluster.getSleepinfo_ok hf, x, mem_listing.2 hx1, hd, .inl rfl⟩)⟩

/-- In a group the run visits, where the listings work, the run leaves only SleepInfos with
generated names, and only restore-patch Secrets whose SleepInfo is there. -/
theorem applyRun_reconciled
    (h : applyRun tenant offLocal onLocal weekdays sleepdays wakedays ns tz f c = .ok c')
    (hobjs : makeAllObjectsForTenant tenant offLocal onLocal weekdays sleepdays wakedays ns tz = .ok objs)
    {g : String} (hg : g ∈ targetSuffixes ns) (hf : f.getSleepinfo (tenant ++ "-" ++ g) = false)
    (hfs : f.getSecrets (tenant ++ "-" ++ g) = false) :
    (∀ x, (tenant ++ "-" ++ g, x) ∈ c'.sleepInfos → x ∈ objs.map (·.metadata.name)) ∧
      ∀ s, (tenant ++ "-" ++ g, s) ∈ c'.secrets → "sleepinfo-".toList.isPrefixOf s.toList = true →
        (tenant ++ "-" ++ g, sleepinfoNameOf s) ∈ c'.sleepInfos := by
  obtain ⟨objs', hobjs', c2, hc2, rfl⟩ := applyRun_ok h
  obtain rfl : objs' = objs := Except.ok.inj (hobjs'.symm.trans hobjs)
  refine ⟨fun x hx => (applyRun_sleepInfo_kept h hobjs hg hf hx).2, fun s hs hpre => ?_⟩
  -- the cleanup listed the Secret and kept it, so it listed its SleepInfo
  obtain ⟨hs2, hnot⟩ := mem_run_secrets_inv hs
  by_contra hmiss
  refine hnot (mem_cleanupOrphanSecrets.2 ⟨g, hg, _, Cluster.getSecrets_ok hfs, s,
    mem_listing.2 hs2, hpre, fun hin => hmiss ?_, rfl⟩)
  rw [Cluster.getSleepinfo_ok hf, Option.getD_some, mem_listing] at hin
  exact mem_run_sleepInfos hin (deleteSleepInfo_not_mem_cleanup _ _)

end Run

/-- What a run leaves in place: every SleepInfo it generated, the restore-patch Secret of each
where the SleepInfo listing works, and everything outside the selected groups. -/
theorem applyRun_frame (tenant offLocal onLocal weekdays : String)
    (sleepdays wakedays ns : Option String) (tz : FixedOffset) (f : Faults) (c c' : Cluster)
    (h : applyRun tenant offLocal onLocal weekdays sleepdays wakedays ns tz f c = .ok c') :
    ∃ objs, makeAllObjectsForTenant tenant offLocal onLocal weekdays sleepdays wakedays ns tz = .ok objs ∧
      (∀ o ∈ objs, (o.metadata.«namespace», o.metadata.name) ∈ c'.sleepInfos) ∧
      (∀ o ∈ objs, f.getSleepinfo o.metadata.«namespace» = false →
        (o.metadata.«namespace», "sleepinfo-" ++ o.metadata.name) ∈ c.secrets →
        (o.metadata.«namespace», "sleepinfo-" ++ o.metadata.name) ∈ c'.secrets) ∧
      ∀ n, (∀ g ∈ normalizeNamespaces ns, n ≠ tenant ++ "-" ++ g) → ∀ x,
        ((n, x) ∈ c.sleepInfos → (n, x) ∈ c'.sleepInfos) ∧ ((n, x) ∈ c.secrets → (n, x) ∈ c'.secrets) := by
  obtain ⟨objs, hobjs, -⟩ := applyRun_ok h
  exact ⟨objs, hobjs, applyRun_generated h hobjs, applyRun_restore h hobjs, applyRun_outside h⟩

/-- A run for the rocket group keeps the apps group's objects untouched. -/
theorem applyRun_frame_rocket :
    ∃ c', applyRun "acme" "22:00" "06:00" weekdaysDefault none none (some "rocket") tzLocal
        ⟨fun _ => false, fun _ => false, false⟩
        ⟨[("acme-apps", "acme-apps"), ("acme-rocket", "old")],
          [("acme-apps", "sleepinfo-acme-apps"), ("acme-rocket", "sleepinfo-acme-rocket")]⟩ = .ok c' ∧
      ∃ objs, makeAllObjectsForTenant "acme" "22:00" "06:00" weekdaysDefault none none (some "rocket")
          tzLocal = .ok objs ∧
        (∀ o ∈ objs, (o.metadata.«namespace», o.metadata.name) ∈ c'.sleepInfos) ∧
        (∀ o ∈ objs, (fun _ => false : String → Bool) o.metadata.«namespace» = false →
          (o.metadata.«namespace», "sleepinfo-" ++ o.metadata.name) ∈
            [("acme-apps", "sleepinfo-acme-apps"), ("acme-rocket", "sleepinfo-acme-rocket")] →
          (o.metadata.«namespace», "sleepinfo-" ++ o.metadata.name) ∈ c'.secrets) ∧
        ∀ n, (∀ g ∈ normalizeNamespaces (some "rocket"), n ≠ "acme" ++ "-" ++ g) → ∀ x,
          ((n, x) ∈ [("acme-apps", "acme-apps"), ("acme-rocket", "old")] → (n, x) ∈ c'.sleepInfos) ∧
          ((n, x) ∈ [("acme-apps", "sleepinfo-acme-apps"), ("acme-rocket", "sleepinfo-acme-rocket")] →
            (n, x) ∈ c'.secrets) :=
  ⟨_, rfl, applyRun_frame "acme" "22:00" "06:00" weekdaysDefault none none (some "rocket") tzLocal
    ⟨fun _ => false, fun _ => false, false⟩ _ _ rfl⟩

/-- Where only the SleepInfo listing of `acme-apps` fails, the cleanup reads it as no SleepInfo
and deletes `sleepinfo-acme-apps`: after the run the SleepInfo `acme-apps` is left without its
restore-patch Secret. -/
theorem applyRun_failed_listing :
    cleanupOrphanSecrets "acme" (some "apps") (fun _ => some ["sleepinfo-acme-apps"]) (fun _ => none) =
        [.deleteSecret "acme-apps" "sleepinfo-acme-apps"] ∧
      ∃ c', applyRun "acme" "22:00" "06:00" weekdaysDefault none none (some "apps") tzLocal
          ⟨fun n => n == "acme-apps", fun _ => false, false⟩
          ⟨[("acme-apps", "acme-apps")], [("acme-apps", "sleepinfo-acme-apps")]⟩ = .ok c' ∧
        ("acme-apps", "acme-apps") ∈ c'.sleepInfos ∧ ("acme-apps", "sleepinfo-acme-apps") ∉ c'.secrets :=
  ⟨rfl, _, rfl, by decide, by decide⟩

end TenantPower
