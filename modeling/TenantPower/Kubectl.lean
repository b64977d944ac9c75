import TenantPower.Assembler

/-!
# The cluster side of an `--apply` run

After printing the YAML, `create` and `update` with `--apply` hand it to `kubectl apply`, then
`reconcile_sleepinfos` deletes the SleepInfos of the targeted namespaces that the run did not
generate, with their restore-patch Secrets, and `cleanup_orphan_secrets` deletes every
`sleepinfo-<name>` Secret whose SleepInfo it does not find.

Each function is given what `kubectl` answered: a listing is the names of its `items`, or `none`
when the command failed (`kubectl_get_sleepinfo` returns `None`, and both readers treat an answer
without `items` the same way). `Cluster` then runs the calls against a state, so that a whole run
is a function from the cluster before to the cluster after.

`show` lists the SleepInfos of the selected namespaces and prints, for each, its days by name and
its times in UTC and in local time (`showSchedulesForTenant`).
-/

namespace TenantPower

/-- A `kubectl` call that changes the cluster. -/
inductive KubectlCall
  | apply (objs : List SleepInfo)
  | deleteSleepInfo (ns name : String)
  | deleteSecret (ns name : String)
  deriving DecidableEq

/-- The namespace groups that `reconcile_sleepinfos` and `cleanup_orphan_secrets` visit, which
both compute with the same code: every group when `--namespaces` is absent or empty, otherwise the
pieces that are a group's exact name. When no piece is, both functions return at once. -/
def targetSuffixes (selectedSuffixes : Option String) : List String :=
  match selectedSuffixes with
  | some s =>
    if s = "" then validSuffixes
    else ((splitCommaSpace (strip s.toList)).map String.mk).filter fun p =>
      p != "" && p ∈ validSuffixes
  | none => validSuffixes

/-! ## `reconcile_sleepinfos` -/

/-- One namespace of `reconcile_sleepinfos`: each listed SleepInfo whose name is not among the
generated objects' names is deleted, then its `sleepinfo-<name>` Secret. -/
def reconcileNamespace (ns : String) (desiredNames : List String) (data : Option (List String)) :
    List KubectlCall :=
  match data with
  | some items => items.flatMap fun name =>
      if name ∈ desiredNames then []
      else [.deleteSleepInfo ns name, .deleteSecret ns ("sleepinfo-" ++ name)]
  | none => []

/-- `reconcile_sleepinfos`, with `getSleepinfo ns` the answer of `kubectl_get_sleepinfo(ns)`. -/
def reconcileSleepinfos (tenant : String) (yamlObjs : List SleepInfo)
    (selectedSuffixes : Option String) (getSleepinfo : String → Option (List String)) :
    List KubectlCall :=
  let desiredNames := yamlObjs.map (·.metadata.name)
  (targetSuffixes selectedSuffixes).flatMap fun suf =>
    reconcileNamespace (tenant ++ "-" ++ suf) desiredNames (getSleepinfo (tenant ++ "-" ++ suf))

/-! ## `cleanup_orphan_secrets` -/

/-- The SleepInfo a restore-patch Secret belongs to: `secret_name.replace("sleepinfo-", "", 1)`,
read only on names that start with `sleepinfo-`, where it drops that prefix. -/
def sleepinfoNameOf (secretName : String) : String :=
  String.mk (secretName.toList.drop "sleepinfo-".length)

/-- One namespace of `cleanup_orphan_secrets`: when the Secret listing succeeded, every
`sleepinfo-<name>` Secret whose `<name>` is not among the listed SleepInfos is deleted. A failed
SleepInfo listing counts as no SleepInfos. -/
def cleanupNamespace (ns : String) (secretsData : Option (List String))
    (sleepinfoData : Option (List String)) : List KubectlCall :=
  match secretsData with
  | some secrets =>
    let existingSleepinfos := sleepinfoData.getD []
    secrets.flatMap fun secretName =>
      if "sleepinfo-".toList.isPrefixOf secretName.toList &&
          !(sleepinfoNameOf secretName ∈ existingSleepinfos) then [.deleteSecret ns secretName]
      else []
  | none => []

/-- `cleanup_orphan_secrets`, with `getSecrets ns` the answer of `kubectl -n ns get secrets` and
`getSleepinfo ns` that of `kubectl_get_sleepinfo(ns)`. -/
def cleanupOrphanSecrets (tenant : String) (selectedSuffixes : Option String)
    (getSecrets getSleepinfo : String → Option (List String)) : List KubectlCall :=
  (targetSuffixes selectedSuffixes).flatMap fun suf =>
    cleanupNamespace (tenant ++ "-" ++ suf) (getSecrets (tenant ++ "-" ++ suf))
      (getSleepinfo (tenant ++ "-" ++ suf))

/-! ## The cluster -/

/-- The objects the tool reads and writes: SleepInfos and Secrets, as `(namespace, name)`. -/
structure Cluster where
  sleepInfos : List (String × String)
  secrets : List (String × String)

/-- What one call does: `apply` creates or updates each object, `delete --ignore-not-found`
removes the object if it is there. -/
def Cluster.exec (c : Cluster) : KubectlCall → Cluster
  | .apply objs =>
    { c with sleepInfos := objs.map (fun o => (o.metadata.«namespace», o.metadata.name)) ++
        c.sleepInfos }
  | .deleteSleepInfo ns name => { c with sleepInfos := c.sleepInfos.filter (· != (ns, name)) }
  | .deleteSecret ns name => { c with secrets := c.secrets.filter (· != (ns, name)) }

/-- The calls of a list, one after the other. -/
def Cluster.run (c : Cluster) (calls : List KubectlCall) : Cluster := calls.foldl Cluster.exec c

/-- Which `kubectl` calls fail: per namespace, the SleepInfo listing and the Secret listing, and
the `kubectl apply` of the run. -/
structure Faults where
  getSleepinfo : String → Bool
  getSecrets : String → Bool
  apply : Bool

/-- `kubectl -n ns get sleepinfo`, answered from the cluster unless it fails. -/
def Cluster.getSleepinfo (c : Cluster) (f : Faults) (ns : String) : Option (List String) :=
  if f.getSleepinfo ns then none else some ((c.sleepInfos.filter (·.1 == ns)).map (·.2))

/-- `kubectl -n ns get secrets`, answered from the cluster unless it fails. -/
def Cluster.getSecrets (c : Cluster) (f : Faults) (ns : String) : Option (List String) :=
  if f.getSecrets ns then none else some ((c.secrets.filter (·.1 == ns)).map (·.2))

/-- `main` for `create` and `update` with `--apply`: generate the objects, apply them (a failed
`kubectl apply` ends the run with exit status 1), reconcile, then clean up orphan Secrets. Each
phase reads its listings from the cluster as the previous phase left it. -/
def applyRun (tenant offLocal onLocal weekdays : String)
    (sleepdays wakedays namespaces : Option String) (tz : FixedOffset) (f : Faults)
    (c : Cluster) : Except String Cluster := do
  let objs ← makeAllObjectsForTenant tenant offLocal onLocal weekdays sleepdays wakedays
    namespaces tz
  if f.apply then throw "kubectl apply failed"
  let c1 := c.exec (.apply objs)
  let c2 := c1.run (reconcileSleepinfos tenant objs namespaces (c1.getSleepinfo f))
  pure (c2.run (cleanupOrphanSecrets tenant namespaces (c2.getSecrets f) (c2.getSleepinfo f)))

/-! ## `show_schedules_for_tenant` -/

/-- What `show_schedules_for_tenant` computes for one listed SleepInfo before it prints it. -/
structure ShownItem where
  /-- The object's name. -/
  name : String
  /-- Its `weekdays`, as listed. -/
  wdKube : String
  /-- The same days as `kube_weekdays_to_human` names them. -/
  wdHuman : String
  /-- Its `sleepAt`, in UTC. -/
  saUtc : String
  /-- Its `sleepAt` in local time. -/
  saLoc : String
  /-- Its `wakeUpAt`, in UTC; empty when the key is absent. -/
  wuUtc : String
  /-- Its `wakeUpAt` in local time. -/
  wuLoc : String
  deriving DecidableEq

/-- The values computed for one listed SleepInfo. A time is taken to local time by
`utc_hhmm_to_local` unless it is empty; an error of that conversion or of `kube_weekdays_to_human`
is not caught. -/
def showItem (tz : FixedOffset) (it : SleepInfo) : Except String ShownItem := do
  let wdKube := it.spec.weekdays
  let wdHuman ← kubeWeekdaysToHuman wdKube
  let saUtc := it.spec.sleepAt
  let wuUtc := it.spec.wakeUpAt.getD ""
  let saLoc ← (if saUtc = "" then pure "" else utcHhmmToLocal saUtc tz)
  let wuLoc ← (if wuUtc = "" then pure "" else utcHhmmToLocal wuUtc tz)
  pure ⟨it.metadata.name, wdKube, wdHuman, saUtc, saLoc, wuUtc, wuLoc⟩

/-- The line printed for one SleepInfo. -/
def ShownItem.line (s : ShownItem) : String :=
  "- " ++ s.name ++ ": weekdays=" ++ s.wdKube ++ " (" ++ s.wdHuman ++ ")  sleepAt UTC=" ++
    s.saUtc ++ " (COT=" ++ s.saLoc ++ ")  wakeUpAt UTC=" ++ s.wuUtc ++ " (COT=" ++ s.wuLoc ++ ")"

/-- `show_schedules_for_tenant`: the lines it prints, with `getSleepinfo ns` the items of
`kubectl_get_sleepinfo(ns)`, `none` when the command failed. A namespace with items prints a
header, then a line per item; when none has items, one line says so. On an error the lines
already printed are not kept. -/
def showSchedulesForTenant (tenant : String) (selectedSuffixes : Option String)
    (getSleepinfo : String → Option (List SleepInfo)) (tz : FixedOffset := tzLocal) :
    Except String (List String) := do
  let blocks ← (namespacesForTenant tenant selectedSuffixes).mapM fun ns =>
    match getSleepinfo ns with
    | some (it :: its) => do
      let shown ← (it :: its).mapM (showItem tz)
      pure (("\n# Namespace: " ++ ns) :: shown.map ShownItem.line)
    | _ => pure []
  let foundAny := blocks.any (· != [])
  pure (if foundAny then blocks.flatten else ["(No SleepInfo found for tenant)"])

end TenantPower
