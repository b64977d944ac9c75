import TenantPower.Assembler

/-!
# What a schedule means

A `SleepInfo` acts at weekly instants: on each day of its `weekdays`, at a time of day in UTC.
The week is a clock of `7 * 1440` minutes, Sunday 00:00 first, and `triggerAt` writes a minute of
it as the pair an object carries, a weekday and an `HH:MM`. The local instant at minute `t` of
weekday `d` is, in UTC, the minute `d * 1440 + t - offset` of the week, round the week
(`utcWeekMinute`); a staggered wake-up `k` minutes later is the minute `k` further on the same
clock (`laterBy`).

The sleep object of a pair and a combined object suspend at their `sleepAt`; the wake object of a
pair restores at its `sleepAt`, a combined object at its `wakeUpAt`. The reconciler keeps what it
restores with the sleep object of a pair, so a wake object has to find that object in its
namespace by its `pair-id` (`WellPaired`). What a selected group gets in its namespace, by name
and role, is `groupLayout`.
-/

namespace TenantPower

/-- The minutes of a week. -/
def weekMinutes : Int := 7 * 1440

/-- The minute of the week, in UTC, of the local instant at minute `t` of weekday `d`. -/
def utcWeekMinute (tz : FixedOffset) (d : Int) (t : Nat) : Int :=
  (d * 1440 + t - tz.minutes) % weekMinutes

/-- The minute `k` minutes after the minute `x` of the week. -/
def laterBy (x k : Int) : Int := (x + k) % weekMinutes

/-- A minute of the week as a weekday and an `HH:MM`. -/
def triggerAt (x : Int) : Int × String := (x / 1440, formatHhmm (x % 1440).toNat)

/-- The spec a side of the schedule follows: its own when given and not empty, else the shared
one. -/
def sideSpec (own : Option String) (shared : String) : String :=
  match own with
  | some s => if s = "" then shared else s
  | none => shared

/-! ## Triggers of objects -/

/-- The time an object suspends at: the sleep object of a pair and a combined object suspend at
their `sleepAt`. -/
def suspendTime (o : SleepInfo) : Option String :=
  match o.metadata.annotations with
  | none => some o.spec.sleepAt
  | some a => if a.pairRole = "sleep" then some o.spec.sleepAt else none

/-- The time an object restores at: the wake object of a pair at its `sleepAt`, a combined object
at its `wakeUpAt`. -/
def restoreTime (o : SleepInfo) : Option String :=
  match o.metadata.annotations with
  | none => o.spec.wakeUpAt
  | some a => if a.pairRole = "wake" then some o.spec.sleepAt else none

/-- `p` is `(w, time)` for a weekday `w` of the object's `weekdays`, as `_expand_weekdays_str`
reads them. -/
def IsTrigger (o : SleepInfo) (time : String) (p : Int × String) : Prop :=
  ∃ ws, expandWeekdaysStr o.spec.weekdays = .ok ws ∧ ∃ w ∈ ws, p = (w, time)

/-- `p` is a sleep trigger of a run's objects. -/
def IsSleepTrigger (objs : List SleepInfo) (p : Int × String) : Prop :=
  ∃ o ∈ objs, ∃ time, suspendTime o = some time ∧ IsTrigger o time p

/-- `p` is a wake trigger of the run's object `name` of the namespace `ns`. -/
def IsWakeTriggerOf (objs : List SleepInfo) (ns name : String) (p : Int × String) : Prop :=
  ∃ o ∈ objs, o.metadata.«namespace» = ns ∧ o.metadata.name = name ∧
    ∃ time, restoreTime o = some time ∧ IsTrigger o time p

/-- `p` is a wake trigger of one of the run's objects in the namespace `ns`. -/
def IsWakeTriggerIn (objs : List SleepInfo) (ns : String) (p : Int × String) : Prop :=
  ∃ o ∈ objs, o.metadata.«namespace» = ns ∧ ∃ time, restoreTime o = some time ∧ IsTrigger o time p

/-! ## Pairs -/

/-- What the reconciler needs of a run's objects. An annotated object is the sleep or the wake
object of a pair; every annotated object finds, in its namespace, the sleep object of its
`pair-id`; a namespace has at most one sleep object; a combined object, without annotations, is
alone in its namespace; and exactly the combined objects carry a `wakeUpAt`. -/
structure WellPaired (objs : List SleepInfo) : Prop where
  roles : ∀ o ∈ objs, ∀ a, o.metadata.annotations = some a →
    a.pairRole = "sleep" ∨ a.pairRole = "wake"
  findsSleep : ∀ o ∈ objs, ∀ a, o.metadata.annotations = some a → ∃ o' ∈ objs,
    o'.metadata.«namespace» = o.metadata.«namespace» ∧ o'.metadata.annotations = some ⟨a.pairId, "sleep"⟩
  oneSleep : ∀ o₁ ∈ objs, ∀ o₂ ∈ objs, ∀ a₁ a₂, o₁.metadata.annotations = some a₁ →
    o₂.metadata.annotations = some a₂ → a₁.pairRole = "sleep" → a₂.pairRole = "sleep" →
    o₁.metadata.«namespace» = o₂.metadata.«namespace» → o₁ = o₂
  combinedAlone : ∀ o₁ ∈ objs, ∀ o₂ ∈ objs, o₁.metadata.annotations = none →
    o₁.metadata.«namespace» = o₂.metadata.«namespace» → o₁ = o₂
  wakeUpAt : ∀ o ∈ objs, o.metadata.annotations = none ↔ o.spec.wakeUpAt ≠ none

/-! ## Layouts -/

/-- An object as its name and its `pair-role`; a combined object has no role. -/
def nameRole (o : SleepInfo) : String × Option String :=
  (o.metadata.name, o.metadata.annotations.map PairAnnotations.pairRole)

/-- The objects of the namespace `n`, in the order of the run, by name and role. -/
def layoutOf (objs : List SleepInfo) (n : String) : List (String × Option String) :=
  (objs.filter fun o => o.metadata.«namespace» == n).map nameRole

/-- The UTC weekdays of the local instants at minute `t` of the days `D`. -/
def utcDays (tz : FixedOffset) (D : List Nat) (t : Nat) : List Int :=
  D.map fun d : Nat => (triggerAt (utcWeekMinute tz d t)).1

/-- The objects a selected group is to get. The datastores get their dependency chain: a sleep
object, then wake objects for PgCluster and HDFS, for PgBouncer and for the workloads. Any other
group gets one combined object when its UTC sleep and wake days are the same set, and a sleep and
a wake object otherwise. -/
def groupLayout (tenant g : String) (sameDays : Bool) : List (String × Option String) :=
  if g = "datastores" then
    [("sleep-ds-deploys-" ++ tenant, some "sleep"),
      ("wake-ds-deploys-" ++ tenant ++ "-pg-hdfs", some "wake"),
      ("wake-ds-deploys-" ++ tenant ++ "-pgbouncer", some "wake"),
      ("wake-ds-deploys-" ++ tenant, some "wake")]
  else if sameDays then [(tenant ++ "-" ++ g, none)]
  else [("sleep-" ++ tenant ++ "-" ++ g, some "sleep"), ("wake-" ++ tenant ++ "-" ++ g, some "wake")]

/-- Every name the tool gives an object of group `g`, in either layout. -/
def toolNames (tenant g : String) : List String :=
  (groupLayout tenant g true ++ groupLayout tenant g false).map Prod.fst

end TenantPower
