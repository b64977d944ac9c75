import TenantPower.Weekdays

/-!
# SleepInfo objects

The kube-green `SleepInfo` resources the tool emits, and the two generators that build them for
one namespace: `makeDatastoresNativeDeploysSplitDays` for `<tenant>-datastores`, whose wake-up is
staggered in three steps, and `makeNsSplitDays` for every other namespace.

A sleep-only object (`pair-role: sleep`) suspends at its `sleepAt`; a wake-only object
(`pair-role: wake`) restores at its `sleepAt`, which is the wake time by the reconciler's
convention; a combined object, without annotations, suspends at `sleepAt` and restores at
`wakeUpAt`.
-/

namespace TenantPower

/-- A `{"matchLabels": {...}}` entry of `excludeRef`. -/
structure ExcludeRef where
  matchLabels : List (String × String)
  deriving DecidableEq

/-- `EXCLUDE_PG_HDFS_LABELS`: the resources of the Postgres and HDFS operators. -/
def excludePgHdfsLabels : List ExcludeRef :=
  [⟨[("app.kubernetes.io/managed-by", "postgres-operator")]⟩,
    ⟨[("postgres.stratio.com/cluster", "true")]⟩,
    ⟨[("app.kubernetes.io/part-of", "postgres")]⟩,
    ⟨[("app.kubernetes.io/managed-by", "hdfs-operator")]⟩,
    ⟨[("hdfs.stratio.com/cluster", "true")]⟩,
    ⟨[("app.kubernetes.io/part-of", "hdfs")]⟩]

/-- `get_exclude_pg_hdfs_refs`. -/
def getExcludePgHdfsRefs : List ExcludeRef := excludePgHdfsLabels

/-- The `kube-green.stratio.com/pair-id` and `kube-green.stratio.com/pair-role` annotations. -/
structure PairAnnotations where
  pairId : String
  pairRole : String
  deriving DecidableEq

/-- An object's `metadata`. -/
structure Metadata where
  name : String
  «namespace» : String
  annotations : Option PairAnnotations
  deriving DecidableEq

/-- `meta`: the annotations are written only when given. -/
def meta (name «namespace» : String) (annotations : Option PairAnnotations) : Metadata :=
  ⟨name, «namespace», annotations⟩

/-- An entry of `patches`, as `patch_block` builds it. -/
structure PatchBlock where
  group : String
  kind : String
  patch : String
  deriving DecidableEq

/-- A `SleepInfo` spec. The three operator flags are written only when true, so `false` stands
for an absent key. -/
structure SleepInfoSpec where
  weekdays : String
  timeZone : String
  sleepAt : String
  suspendDeployments : Bool
  suspendStatefulSets : Bool
  suspendCronJobs : Bool
  wakeUpAt : Option String
  suspendDeploymentsPgbouncer : Bool
  suspendStatefulSetsPostgres : Bool
  suspendStatefulSetsHdfs : Bool
  excludeRef : Option (List ExcludeRef)
  patches : Option (List PatchBlock)
  deriving DecidableEq

/-- `sleepinfo_base`, its arguments in the source's order. -/
def sleepinfoBase (weekdays sleepAtUTC : String) (wakeUpAtUTC : Option String) (tz : String)
    (suspendDeployments suspendStatefulSets suspendCronJobs suspendDeploymentsPgbouncer
      suspendStatefulSetsPostgres suspendStatefulSetsHdfs : Bool) : SleepInfoSpec :=
  ⟨weekdays, tz, sleepAtUTC, suspendDeployments, suspendStatefulSets, suspendCronJobs,
    wakeUpAtUTC, suspendDeploymentsPgbouncer, suspendStatefulSetsPostgres,
    suspendStatefulSetsHdfs, none, none⟩

/-- A kube-green resource. -/
structure SleepInfo where
  apiVersion : String
  kind : String
  metadata : Metadata
  spec : SleepInfoSpec
  deriving DecidableEq

/-- `cr_yaml`: its `kind` argument is not read; every object is a `SleepInfo`. -/
def crYaml (_kind : String) (metadata : Metadata) (spec : SleepInfoSpec) : SleepInfo :=
  ⟨"kube-green.com/v1alpha1", "SleepInfo", metadata, spec⟩

/-- `set(a) == set(b)`. -/
def sameSet (a b : List Int) : Bool := a.all (· ∈ b) && b.all (· ∈ a)

/-- `spec["key"] = value` guarded by `if value:`: an empty list leaves the key out. -/
def ifNonempty {α : Type} [DecidableEq α] (l : List α) : Option (List α) := if l = [] then none else some l

/-! ## `<tenant>-datastores` -/

/-- The four objects of `make_datastores_native_deploys_split_days`: one sleep object for every
resource, then wake objects for PgCluster and HDFS, for PgBouncer and for the native workloads. -/
def datastoresObjects (tenant offUtc onDeploymentsUtc onPgHdfs onPgbouncer wdSleep wdWake :
    String) : List SleepInfo :=
  let ns := tenant ++ "-datastores"
  let baseName := "ds-deploys-" ++ tenant
  let sharedId := tenant ++ "-datastores"
  let excl := some getExcludePgHdfsRefs
  [crYaml "SleepInfo" (meta ("sleep-" ++ baseName) ns (some ⟨sharedId, "sleep"⟩))
      { sleepinfoBase wdSleep offUtc none "UTC" true true true true true true with
        excludeRef := excl },
    crYaml "SleepInfo" (meta ("wake-" ++ baseName ++ "-pg-hdfs") ns (some ⟨sharedId, "wake"⟩))
      { sleepinfoBase wdWake onPgHdfs none "UTC" false false false false true true with
        excludeRef := excl },
    crYaml "SleepInfo" (meta ("wake-" ++ baseName ++ "-pgbouncer") ns (some ⟨sharedId, "wake"⟩))
      { sleepinfoBase wdWake onPgbouncer none "UTC" false false false true false false with
        excludeRef := excl },
    crYaml "SleepInfo" (meta ("wake-" ++ baseName) ns (some ⟨sharedId, "wake"⟩))
      { sleepinfoBase wdWake onDeploymentsUtc none "UTC" true true true true false false with
        excludeRef := excl }]

/-- `make_datastores_native_deploys_split_days`. Both branches of its `if wd_sleep_set ==
wd_wake_set` build the same four objects; the comparison still expands both specs, which
raises on a malformed one. -/
def makeDatastoresNativeDeploysSplitDays (tenant offUtc onDeploymentsUtc onPgHdfs onPgbouncer
    wdSleep wdWake : String) : Except String (List SleepInfo) := do
  let wdSleepSet ← expandWeekdaysStr wdSleep
  let wdWakeSet ← expandWeekdaysStr wdWake
  let objs := datastoresObjects tenant offUtc onDeploymentsUtc onPgHdfs onPgbouncer wdSleep wdWake
  pure (if sameSet wdSleepSet wdWakeSet then objs else objs)

/-! ## Other namespaces -/

/-- `make_ns_split_days`: one combined object when the sleep and wake days are the same set,
otherwise a sleep object and a wake object sharing a `pair-id`. In `apps` the Virtualizer is
excluded; `base_name` is not read. -/
def makeNsSplitDays (tenant nsSuffix _baseName offUtc onDeploymentsUtc wdSleep wdWake : String)
    (suspendStatefulsets suspendStatefulsetsPostgres : Bool)
    (extraSleepPatches extraWakePatches : List PatchBlock) (extraExcludeLabels : List ExcludeRef) :
    Except String (List SleepInfo) := do
  let ns := tenant ++ "-" ++ nsSuffix
  let excludeRef := extraExcludeLabels ++
    if nsSuffix = "apps" then [⟨[("cct.stratio.com/application_id", "virtualizer." ++ ns)]⟩]
    else []
  let wdSleepSet ← expandWeekdaysStr wdSleep
  let wdWakeSet ← expandWeekdaysStr wdWake
  if sameSet wdSleepSet wdWakeSet then
    pure [crYaml "SleepInfo" (meta (tenant ++ "-" ++ nsSuffix) ns none)
      { sleepinfoBase wdSleep offUtc (some onDeploymentsUtc) "UTC" true suspendStatefulsets true
          false suspendStatefulsetsPostgres false with
        excludeRef := ifNonempty excludeRef
        patches := ifNonempty (extraSleepPatches ++ extraWakePatches) }]
  else
    let sharedId := tenant ++ "-" ++ nsSuffix
    pure [crYaml "SleepInfo" (meta ("sleep-" ++ tenant ++ "-" ++ nsSuffix) ns
        (some ⟨sharedId, "sleep"⟩))
      { sleepinfoBase wdSleep offUtc none "UTC" true suspendStatefulsets true false
          suspendStatefulsetsPostgres false with
        excludeRef := ifNonempty excludeRef
        patches := ifNonempty extraSleepPatches },
      crYaml "SleepInfo" (meta ("wake-" ++ tenant ++ "-" ++ nsSuffix) ns
        (some ⟨sharedId, "wake"⟩))
      { sleepinfoBase wdWake onDeploymentsUtc none "UTC" true suspendStatefulsets true false
          suspendStatefulsetsPostgres false with
        excludeRef := ifNonempty excludeRef
        patches := ifNonempty extraWakePatches }]

end TenantPower
