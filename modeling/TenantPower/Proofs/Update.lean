import TenantPower.Proofs.Cluster
import TenantPower.Proofs.Output
import Mathlib.Logic.Relation

/-!
# Proofs: runs one after another

A tenant's schedule is changed by running `update --apply` again. Reconcile keeps a listed
SleepInfo whose name is that of any generated object, in whatever namespace, so a stale object
survives when its name is one the run generated for another group. The names the tool gives the
objects of different groups never meet, whatever the tenant (`toolNames_disjoint`): they are the
tenant between two fixed texts, and the texts of two groups are not made of the same code points,
as their lengths or their numbers of `d`, `e` or `l` show.

So if only the tool has written SleepInfos into the tenant's namespaces, which runs keep true
(`toolMade_of_runs`), a run leaves in each group it reconciles exactly the objects it generated
for that group (`applyRun_replaces`), whatever earlier runs left there.

Reconcile and cleanup read `--namespaces` by exact name, where the generator lowercases it and
falls back to every group when it names none. In a group the generator writes to but reconcile
does not visit, a run deletes nothing: the old objects stay next to the new ones
(`applyRun_unreconciled`).
-/

namespace TenantPower

/-! ## The names of the groups -/

/-- The texts before and after the tenant in the names the tool gives the objects of group
`g`. -/
def nameParts (g : String) : List (List Char × List Char) :=
  if g = "datastores" then
    [("sleep-ds-deploys-".data, []), ("wake-ds-deploys-".data, "-pg-hdfs".data),
      ("wake-ds-deploys-".data, "-pgbouncer".data), ("wake-ds-deploys-".data, [])]
  else [([], '-' :: g.data), ("sleep-".data, '-' :: g.data), ("wake-".data, '-' :: g.data)]

theorem toolNames_parts {tenant g : String} :
    ∀ x ∈ toolNames tenant g, ∃ q ∈ nameParts g, x.data = q.1 ++ tenant.data ++ q.2 := by
  by_cases hd : g = "datastores"
  · subst hd
    simp [toolNames, groupLayout, nameParts]
  · simp [toolNames, groupLayout, nameParts, hd]

/-- The length of the texts around the tenant, and how many `d`, `e` and `l` they hold. -/
def partsKey (q : List Char × List Char) : List Nat :=
  (q.1 ++ q.2).length :: ['d', 'e', 'l'].map fun a => (q.1 ++ q.2).count a

/-- The texts of two groups differ in length or in their number of `d`, `e` or `l`. -/
theorem nameParts_apart : ∀ g ∈ validSuffixes, ∀ g' ∈ validSuffixes, g ≠ g' →
    ∀ q ∈ nameParts g, ∀ q' ∈ nameParts g', partsKey q ≠ partsKey q' := by
  decide

/-- Two names that put the same tenant between two texts are equal only if the texts around it
are made of the same code points. -/
theorem perm_of_parts_eq {p s p' s' t : List Char} (h : p ++ t ++ s = p' ++ t ++ s') :
    (p ++ s).Perm (p' ++ s') := by
  refine List.perm_iff_count.2 fun a => ?_
  have := congrArg (List.count a) h
  simp only [List.count_append] at this ⊢
  omega

/-- No name the tool gives an object of one group is one it gives an object of another. -/
theorem toolNames_disjoint {tenant g g' x : String} (hg : g ∈ validSuffixes)
    (hg' : g' ∈ validSuffixes) (hne : g ≠ g') (hx : x ∈ toolNames tenant g) :
    x ∉ toolNames tenant g' := fun hx' => by
  obtain ⟨q, hq, e⟩ := toolNames_parts x hx
  obtain ⟨q', hq', e'⟩ := toolNames_parts x hx'
  have hp := perm_of_parts_eq (e.symm.trans e')
  exact nameParts_apart g hg g' hg' hne q hq q' hq' (by
    simp only [partsKey, hp.length_eq, List.map_cons, List.map_nil, hp.count_eq])

/-! ## The names of a run -/

theorem makeNsSplitDays_toolNames {tenant g b offUtc onDep wdS wdW : String} {s p : Bool}
    {sp wp : List PatchBlock} {ex : List ExcludeRef} {X : List SleepInfo} (hg : g ≠ "datastores")
    (h : makeNsSplitDays tenant g b offUtc onDep wdS wdW s p sp wp ex = .ok X) :
    ∀ o ∈ X, o.metadata.«namespace» = tenant ++ "-" ++ g ∧ o.metadata.name ∈ toolNames tenant g := by
  simp only [makeNsSplitDays] at h
  obtain ⟨A, -, h⟩ := bind_eq_ok.1 h
  obtain ⟨B, -, h⟩ := bind_eq_ok.1 h
  split_ifs at h <;> cases h <;> simp [toolNames, groupLayout, hg, crYaml, meta]

theorem datastoresObjects_toolNames (tenant offUtc onDep onPgHdfs onPgb wdS wdW : String) :
    ∀ o ∈ datastoresObjects tenant offUtc onDep onPgHdfs onPgb wdS wdW,
      o.metadata.«namespace» = tenant ++ "-" ++ "datastores" ∧
        o.metadata.name ∈ toolNames tenant "datastores" := by
  simp [datastoresObjects, toolNames, groupLayout, crYaml, meta, datastoresNs_eq,
    ← String.append_assoc]

/-- Every object of a run lies in the namespace of a group, with a name the tool gives that
group. -/
theorem makeAllObjectsForTenant_toolNames {tenant offLocal onLocal weekdays : String}
    {sleepdays wakedays ns : Option String} {tz : FixedOffset} {objs : List SleepInfo}
    (h : makeAllObjectsForTenant tenant offLocal onLocal weekdays sleepdays wakedays ns tz = .ok objs) :
    ∀ o ∈ objs, ∃ g ∈ validSuffixes, o.metadata.«namespace» = tenant ++ "-" ++ g ∧
      o.metadata.name ∈ toolNames tenant g := by
  obtain ⟨_, _, _, _, _, _, _, _, _, _, -, -, -, -, -, -, -, D, XA, XR, XI, XF, hD, hXA, hXR, hXI,
    hXF, rfl⟩ := makeAllObjectsForTenant_ok_cases h
  intro o ho
  rcases selected_mem hD hXA hXR hXI hXF o ho with ho | ⟨g, hg, _, _, _, _, hX, ho⟩
  · exact ⟨"datastores", .head _, datastoresObjects_toolNames _ _ _ _ _ _ _ o ho⟩
  · exact ⟨g, .tail _ hg, makeNsSplitDays_toolNames (by rintro rfl; exact absurd hg (by decide)) hX o ho⟩

/-- The names of the layout of a namespace: those of the run's objects in it. -/
theorem mem_layoutOf_names {objs : List SleepInfo} {n x : String} :
    x ∈ (layoutOf objs n).map Prod.fst ↔ ∃ o ∈ objs, o.metadata.«namespace» = n ∧ o.metadata.name = x := by
  simp [layoutOf, nameRole, List.mem_filter, and_assoc]

/-! ## Runs one after another -/

/-- One `create` or `update` run with `--apply` for `tenant`, with any arguments and any faults,
that ends without error. -/
def RunStep (tenant : String) (c c' : Cluster) : Prop :=
  ∃ (offLocal onLocal weekdays : String) (sleepdays wakedays ns : Option String) (tz : FixedOffset)
    (f : Faults), applyRun tenant offLocal onLocal weekdays sleepdays wakedays ns tz f c = .ok c'

/-- Every SleepInfo in the namespace of one of the tenant's groups has a name the tool gives that
group, as when only the tool has written there. -/
def ToolMade (tenant : String) (c : Cluster) : Prop :=
  ∀ g ∈ validSuffixes, ∀ x, (tenant ++ "-" ++ g, x) ∈ c.sleepInfos → x ∈ toolNames tenant g

/-- An empty cluster is tool-made. -/
theorem toolMade_empty (tenant : String) : ToolMade tenant ⟨[], []⟩ :=
  fun _ _ _ h => absurd h (List.not_mem_nil _)

/-- A run keeps the tenant's namespaces tool-made: what it adds has the names of its groups, and
it only deletes otherwise. -/
theorem applyRun_toolMade {tenant offLocal onLocal weekdays : String}
    {sleepdays wakedays ns : Option String} {tz : FixedOffset} {f : Faults} {c c' : Cluster}
    (hc : ToolMade tenant c)
    (h : applyRun tenant offLocal onLocal weekdays sleepdays wakedays ns tz f c = .ok c') :
    ToolMade tenant c' := by
  obtain ⟨objs, hobjs, -⟩ := applyRun_ok h
  intro g hg x hx
  obtain ⟨hx1, -⟩ := applyRun_sleepInfo_applied h hobjs hx
  rcases List.mem_append.1 hx1 with hx1 | hx1
  · -- an object of the run, named for the group of its namespace
    obtain ⟨o, ho, he⟩ := List.mem_map.1 hx1
    obtain ⟨g', -, hns, hname⟩ := makeAllObjectsForTenant_toolNames hobjs o ho
    obtain ⟨hns', rfl⟩ := Prod.mk.inj he
    exact groupNs_inj (hns.symm.trans hns') ▸ hname
  · exact hc g hg x hx1

/-- Every cluster that runs of the tool reach from a tool-made one is tool-made, whatever the
arguments and the faults of each run. -/
theorem toolMade_of_runs {tenant : String} {c₀ c : Cluster} (h₀ : ToolMade tenant c₀)
    (hr : Relation.ReflTransGen (RunStep tenant) c₀ c) : ToolMade tenant c := by
  induction hr with
  | refl => exact h₀
  | tail _ hstep ih =>
    obtain ⟨_, _, _, _, _, _, _, _, h⟩ := hstep
    exact applyRun_toolMade ih h

/-- The cluster a `create` for the apps group leaves from an empty one. -/
theorem toolMade_of_runs_apps : ToolMade "acme" ⟨[("acme-apps", "acme-apps")], []⟩ :=
  toolMade_of_runs (toolMade_empty "acme") (Relation.ReflTransGen.single ⟨"08:00", "18:00",
    "lunes-viernes", none, none, some "apps", tzLocal, ⟨fun _ => false, fun _ => false, false⟩, rfl⟩)

/-- A run from a tool-made cluster replaces the schedule of each group it reconciles whose
SleepInfo listing works: that namespace then holds exactly the objects the run generated for
it. -/
theorem applyRun_replaces_of_toolMade {tenant offLocal onLocal weekdays : String}
    {sleepdays wakedays ns : Option String} {tz : FixedOffset} {f : Faults} {c c' : Cluster}
    (hc : ToolMade tenant c)
    (h : applyRun tenant offLocal onLocal weekdays sleepdays wakedays ns tz f c = .ok c')
    {g : String} (hg : g ∈ targetSuffixes ns) (hf : f.getSleepinfo (tenant ++ "-" ++ g) = false) :
    ∃ objs, makeAllObjectsForTenant tenant offLocal onLocal weekdays sleepdays wakedays ns tz =
        .ok objs ∧
      ∀ x, (tenant ++ "-" ++ g, x) ∈ c'.sleepInfos ↔ x ∈ (layoutOf objs (tenant ++ "-" ++ g)).map Prod.fst := by
  obtain ⟨objs, hobjs, -⟩ := applyRun_ok h
  have hgv : g ∈ validSuffixes := (normalizeNamespaces_spec ns).2 g (targetSuffixes_subset hg)
  refine ⟨objs, hobjs, fun x => ⟨fun hx => mem_layoutOf_names.2 ?_, fun hx => ?_⟩⟩
  · obtain ⟨hx1, hxn⟩ := applyRun_sleepInfo_kept h hobjs hg hf hx
    rcases List.mem_append.1 hx1 with hx1 | hx1
    · -- applied by this run
      obtain ⟨o, ho, he⟩ := List.mem_map.1 hx1
      exact ⟨o, ho, (Prod.mk.inj he).1, (Prod.mk.inj he).2⟩
    · -- left by earlier runs under a name of this group, and kept for a generated object of the
      -- same name, which can only be of this group
      obtain ⟨o, ho, rfl⟩ := List.mem_map.1 hxn
      obtain ⟨g', hg', hns, hname⟩ := makeAllObjectsForTenant_toolNames hobjs o ho
      obtain rfl : g' = g := by_contra fun hne => toolNames_disjoint hgv hg' (Ne.symm hne)
        (hc g hgv _ hx1) hname
      exact ⟨o, ho, hns, rfl⟩
  · obtain ⟨o, ho, hns, rfl⟩ := mem_layoutOf_names.1 hx
    exact hns ▸ applyRun_generated h hobjs o ho

/-- Reconcile deletes nothing in the namespace of a group it does not visit. -/
theorem reconcileSleepinfos_untargeted {tenant : String} {objs : List SleepInfo}
    {ns : Option String} {getSleepinfo : String → Option (List String)} {g : String}
    (hg : g ∉ targetSuffixes ns) (x : String) :
    KubectlCall.deleteSleepInfo (tenant ++ "-" ++ g) x ∉ reconcileSleepinfos tenant objs ns getSleepinfo ∧
      KubectlCall.deleteSecret (tenant ++ "-" ++ g) x ∉ reconcileSleepinfos tenant objs ns getSleepinfo := by
  constructor <;> intro h <;> obtain ⟨g', hg', y, hy | hy⟩ := reconcileSleepinfos_deletes_in_targets h
  · exact hg (groupNs_inj (KubectlCall.deleteSleepInfo.inj hy).1 ▸ hg')
  · cases hy
  · cases hy
  · exact hg (groupNs_inj (KubectlCall.deleteSecret.inj hy).1 ▸ hg')

/-- The cleanup deletes nothing in the namespace of a group it does not visit. -/
theorem cleanupOrphanSecrets_untargeted {tenant : String} {ns : Option String}
    {getSecrets getSleepinfo : String → Option (List String)} {g : String}
    (hg : g ∉ targetSuffixes ns) (x : String) :
    KubectlCall.deleteSecret (tenant ++ "-" ++ g) x ∉ cleanupOrphanSecrets tenant ns getSecrets getSleepinfo :=
  fun h => by
    obtain ⟨g', hg', y, hy⟩ := cleanupOrphanSecrets_deletes_in_targets h
    exact hg (groupNs_inj (KubectlCall.deleteSecret.inj hy).1 ▸ hg')

/-- In the namespace of a group that reconcile and cleanup do not visit, such as one that
`--namespaces` names in capitals, or any group when it names none exactly, an `--apply` run
deletes nothing: the namespace then holds what it held and what the run generated for it, and
the same Secrets. -/
theorem applyRun_unreconciled (tenant offLocal onLocal weekdays : String)
    (sleepdays wakedays ns : Option String) (tz : FixedOffset) (f : Faults) (c c' : Cluster)
    (h : applyRun tenant offLocal onLocal weekdays sleepdays wakedays ns tz f c = .ok c')
    (g : String) (hg : g ∉ targetSuffixes ns) :
    ∃ objs, makeAllObjectsForTenant tenant offLocal onLocal weekdays sleepdays wakedays ns tz =
        .ok objs ∧
      (∀ x, (tenant ++ "-" ++ g, x) ∈ c'.sleepInfos ↔ (tenant ++ "-" ++ g, x) ∈ c.sleepInfos ∨
        x ∈ (layoutOf objs (tenant ++ "-" ++ g)).map Prod.fst) ∧
      ∀ s, (tenant ++ "-" ++ g, s) ∈ c'.secrets ↔ (tenant ++ "-" ++ g, s) ∈ c.secrets := by
  obtain ⟨objs, hobjs, c2, hc2, hc'⟩ := applyRun_ok h
  refine ⟨objs, hobjs, fun x => ⟨fun hx => ?_, fun hx => ?_⟩, fun s => ⟨fun hs => ?_, fun hs => ?_⟩⟩
  · -- a SleepInfo there after the run was there before, or the run applied it
    rcases List.mem_append.1 (applyRun_sleepInfo_applied h hobjs hx).1 with hx1 | hx1
    · obtain ⟨o, ho, he⟩ := List.mem_map.1 hx1
      exact .inr (mem_layoutOf_names.2 ⟨o, ho, (Prod.mk.inj he).1, (Prod.mk.inj he).2⟩)
    · exact .inl hx1
  · rcases hx with hx | hx
    · rw [hc']
      exact mem_run_sleepInfos (hc2 ▸ mem_run_sleepInfos (List.mem_append_right _ hx)
        (reconcileSleepinfos_untargeted hg x).1) (deleteSleepInfo_not_mem_cleanup _ _)
    · obtain ⟨o, ho, hns, rfl⟩ := mem_layoutOf_names.1 hx
      exact hns ▸ applyRun_generated h hobjs o ho
  · -- no call creates a Secret
    rw [hc'] at hs
    exact (mem_run_secrets_inv (c := c.exec (.apply objs)) (hc2 ▸ (mem_run_secrets_inv hs).1)).1
  · rw [hc']
    exact mem_run_secrets (hc2 ▸ mem_run_secrets hs (reconcileSleepinfos_untargeted hg s).2)
      (cleanupOrphanSecrets_untargeted hg s)

/-- `update` with `--namespaces Apps`, in capitals, after a `create` that left a pair in the apps
namespace: the run generates the apps objects, but reconcile visits no group. -/
theorem applyRun_unreconciled_apps :
    "apps" ∉ targetSuffixes (some "Apps") ∧ "apps" ∈ normalizeNamespaces (some "Apps") ∧
    ∃ c', applyRun "acme" "08:00" "18:00" "lunes-viernes" none none (some "Apps") tzLocal
        ⟨fun _ => false, fun _ => false, false⟩
        ⟨[("acme-apps", "sleep-acme-apps"), ("acme-apps", "wake-acme-apps")], []⟩ = .ok c' ∧
      ∃ objs, makeAllObjectsForTenant "acme" "08:00" "18:00" "lunes-viernes" none none
          (some "Apps") tzLocal = .ok objs ∧
        (∀ x, ("acme" ++ "-" ++ "apps", x) ∈ c'.sleepInfos ↔ ("acme" ++ "-" ++ "apps", x) ∈
            [("acme-apps", "sleep-acme-apps"), ("acme-apps", "wake-acme-apps")] ∨
          x ∈ (layoutOf objs ("acme" ++ "-" ++ "apps")).map Prod.fst) ∧
        ∀ s, ("acme" ++ "-" ++ "apps", s) ∈ c'.secrets ↔
          ("acme" ++ "-" ++ "apps", s) ∈ ([] : List (String × String)) :=
  ⟨by decide, by decide, _, rfl, applyRun_unreconciled "acme" "08:00" "18:00" "lunes-viernes" none
    none (some "Apps") tzLocal ⟨fun _ => false, fun _ => false, false⟩
    ⟨[("acme-apps", "sleep-acme-apps"), ("acme-apps", "wake-acme-apps")], []⟩ _ rfl "apps"
    (by decide)⟩

/-- The old pair stays next to the new combined object, and both schedules run. -/
example : (applyRun "acme" "08:00" "18:00" "lunes-viernes" none none (some "Apps") tzLocal
    ⟨fun _ => false, fun _ => false, false⟩
    ⟨[("acme-apps", "sleep-acme-apps"), ("acme-apps", "wake-acme-apps")], []⟩).map (·.sleepInfos) =
    .ok [("acme-apps", "acme-apps"), ("acme-apps", "sleep-acme-apps"),
      ("acme-apps", "wake-acme-apps")] := rfl

end TenantPower
