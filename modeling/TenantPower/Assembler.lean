import TenantPower.SleepInfo
import TenantPower.Time

/-!
# The schedule assembler

`make_all_objects_for_tenant`: read the local weekday specs, convert the off and on times to UTC,
move each weekday spec by the day shift of its own time, stagger the wake-up of the datastores
(PgCluster and HDFS at the on time, PgBouncer 5 minutes later, every workload 7 minutes later)
and build the objects of each selected namespace group.
-/

namespace TenantPower

/-- `WEEKDAYS_DEFAULT`: every day. -/
def weekdaysDefault : String := "0-6"

/-- `VALID_SUFFIXES`: the namespace groups of a tenant. -/
def validSuffixes : List String := ["datastores", "apps", "rocket", "intelligence", "airflowsso"]

/-- `normalize_namespaces` on a `--namespaces` argument: the valid groups it names, in any case,
or every group when it names none. The source returns a set; only membership is read. -/
def normalizeNamespaces (nsArg : Option String) : List String :=
  match nsArg with
  | some arg =>
    if arg = "" then validSuffixes else
      let out := (splitCommaSpace (strip arg.toList)).filterMap fun p =>
        if p = [] then none
        else if String.mk (lower p) ∈ validSuffixes then some (String.mk (lower p)) else none
      if out = [] then validSuffixes else out
  | none => validSuffixes

/-- `allow_ns`: an empty selection allows every group. -/
def allowNs (selectedSet : List String) (suffix : String) : Bool :=
  suffix ∈ (if selectedSet = [] then validSuffixes else selectedSet)

/-- `namespaces_for_tenant`: the selected namespaces, in the order of `VALID_SUFFIXES`. -/
def namespacesForTenant (tenant : String) (selectedSuffixes : Option String) : List String :=
  (validSuffixes.filter (· ∈ normalizeNamespaces selectedSuffixes)).map (tenant ++ "-" ++ ·)

/-- `if allow_ns(selected, suffix): objs += make(...)`. -/
def addIfAllowed (selected : List String) (suffix : String)
    (make : Except String (List SleepInfo)) : Except String (List SleepInfo) :=
  if allowNs selected suffix then make else pure []

/-- `human_weekdays_to_kube(spec) if spec else wd_default`: a side's own spec, read, when it is
given and not empty (Python's truth value of a string), else the shared one. -/
def sideWeekdays (spec : Option String) (wdDefault : String) : Except String String :=
  match spec with
  | some s => if s = "" then pure wdDefault else humanWeekdaysToKube s
  | none => pure wdDefault

/-- Step 1 of `make_all_objects_for_tenant`: the local sleep and wake weekday specs, read. -/
def localWeekdays (weekdays : String) (sleepdays wakedays : Option String) :
    Except String (String × String) := do
  let wdDefault ← humanWeekdaysToKube weekdays
  let wdSleepLocal ← sideWeekdays sleepdays wdDefault
  let wdWakeLocal ← sideWeekdays wakedays wdDefault
  pure (wdSleepLocal, wdWakeLocal)

/-- `make_all_objects_for_tenant`. A spec the weekday parser rejects ends the run with
`[ERROR] <message>` (`sys.exit(1)`); the zone `tz` is `TZ_LOCAL` in the source. -/
def makeAllObjectsForTenant (tenant offLocal onLocal : String) (weekdays : String)
    (sleepdays wakedays selectedSuffixes : Option String) (tz : FixedOffset := tzLocal) :
    Except String (List SleepInfo) := do
  let (wdSleepLocal, wdWakeLocal) ←
    (localWeekdays weekdays sleepdays wakedays).mapError ("[ERROR] " ++ ·)
  let (offUtc, offShift) ← toUtcHhmmAndDayshift offLocal tz
  let (onUtc, onShift) ← toUtcHhmmAndDayshift onLocal tz
  let wdSleepUtc ← shiftWeekdaysStr wdSleepLocal offShift
  let wdWakeUtc ← shiftWeekdaysStr wdWakeLocal onShift
  let onPgHdfs := onUtc
  let onPgbouncer ← addMinutesHhmm onUtc 5
  let onDeployments ← addMinutesHhmm onUtc 7
  let selected := normalizeNamespaces selectedSuffixes
  let datastores ← addIfAllowed selected "datastores" (makeDatastoresNativeDeploysSplitDays
    tenant offUtc onDeployments onPgHdfs onPgbouncer wdSleepUtc wdWakeUtc)
  let apps ← addIfAllowed selected "apps" (makeNsSplitDays tenant "apps" "apps" offUtc
    onDeployments wdSleepUtc wdWakeUtc false false [] [] [])
  let rocket ← addIfAllowed selected "rocket" (makeNsSplitDays tenant "rocket" "rocket" offUtc
    onDeployments wdSleepUtc wdWakeUtc false false [] [] [])
  let intelligence ← addIfAllowed selected "intelligence" (makeNsSplitDays tenant "intelligence"
    "intelligence" offUtc onDeployments wdSleepUtc wdWakeUtc false false [] [] [])
  let airflowsso ← addIfAllowed selected "airflowsso" (makeNsSplitDays tenant "airflowsso"
    "airflowsso" offUtc onDeployments wdSleepUtc wdWakeUtc true true [] [] getExcludePgHdfsRefs)
  pure (datastores ++ apps ++ rocket ++ intelligence ++ airflowsso)

/-! ## YAML output -/

/-- The pass of `to_yaml_docs` over the objects before it dumps them: a `weekdays` with a letter
is read again by `human_weekdays_to_kube`, whose error is not caught. Wrapping each patch as a
literal block scalar and the `str` of the time fields change no value of the model. -/
def toYamlNormalize (objs : List SleepInfo) : Except String (List SleepInfo) :=
  objs.mapM fun o =>
    if hasSpanishLetter o.spec.weekdays.toList then do
      let wd ← humanWeekdaysToKube o.spec.weekdays
      pure { o with spec := { o.spec with weekdays := wd } }
    else pure o

end TenantPower
