import VoltykBot.Lib.Run
import VoltykBot.Lib.TtlCache
import VoltykBot.Schedule.Parse

/-!
This module contains the charts of the schedules and their caches: `fetch_schedule_image` looks into
`_image_cache`, then into Redis, then draws; `_check_single_queue` invalidates and draws anew when a
schedule has changed. It shows when a chart of an earlier schedule can still be served.
-/

namespace Scheduler

/--
What the charts take from their surroundings: `_normalize_dtek_updated_at`, which raises where the outer
option is `none`, the text that `normalize_schedule_chart_metadata` makes of the clock, and the first 16
hex digits of SHA-256.
-/
structure ChartEnv where
  normalizeDtekUpdatedAt : Json → Option (Option String)
  kyivText : WallTime → String
  sha256 : String → String

structure Png where
  drawnFrom : Sched
  deriving DecidableEq

/--
Both caches build their keys from a pair and a fingerprint. Neither region nor queue contains the
separators, so the keys differ where these do.
-/
structure ChartKey where
  pair : Pair
  fingerprint : Option String
  deriving DecidableEq

/--
A call of `fetch_schedule_image` that has its key. `now` is the time it read before it looked into the
caches; `due` records the events it has to show, if it asks for the current schedule of the pair.
-/
structure Lookup where
  key : ChartKey
  sched : Option Sched
  now : WallTime
  due : Option (List ScheduleEvent)
  deriving DecidableEq

structure Change where
  pair : Pair
  sched : Sched
  normalized : Sched
  key : ChartKey
  deriving DecidableEq

inductive ChartTask where
  | askingSource (pair : Pair) (sched : Sched) (cached : Option String)
      (due : Option (List ScheduleEvent))
  | drawingOnDemand (sched : Sched) (due : Option (List ScheduleEvent))
  | reading (l : Lookup)
  | hit (l : Lookup) (png : Png)
  | drawing (l : Lookup)
  | storing (l : Lookup) (png : Png)
  | stored (l : Lookup) (png : Png)
  | downloading (l : Lookup)
  | deleting (change : Change)
  | prerendering (change : Change)
  | prestoring (change : Change) (png : Png)
  | prestored (change : Change)
  deriving DecidableEq

inductive Current where
  | unknown
  | changing (id : Nat)
  | settled (sched : Sched)
  deriving DecidableEq

/--
`current` and `served` are records: the last schedule of a pair that was invalidated and drawn, and the
PNGs that calls returned, with the events they had to show.
-/
structure Charts where
  now : WallTime
  onDemand : Bool
  imageCache : TtlCache.Front ChartKey Png
  redis : TtlCache.Store ChartKey Png
  sourceUpdateCache : TtlCache.Front String (Option String)
  tasks : Nat → Option ChartTask
  current : Pair → Current
  served : List (Option (List ScheduleEvent) × Png)

/--
How the commits request of `get_queue_source_updated_at` goes: `commits` has the date found in the newest
commit, `failed` is any other status, an oversized answer or an exception.
-/
inductive SourceAnswer where
  | notModified
  | commits (date : Json)
  | failed

inductive ChartEvent where
  | elapsed (us : Nat)
  | renderModeSet (onDemand : Bool)
  | restarted
  | changed (id : Nat) (pair : Pair) (sched : Sched)
  | fetched (id : Nat) (pair : Pair) (sched : Option Sched)
  | sourceAnswered (id : Nat) (answer : SourceAnswer)
  | redisDeleted (id : Nat)
  | redisRead (id : Nat)
  | redisStored (id : Nat)
  | drawn (id : Nat) (ok : Bool)
  | downloaded (id : Nat) (png : Option Png)
  | resumed (id : Nat)

def cacheTtl : Int := 2 * minuteUs

def queueSourceUpdateTtl : Int := 10 * minuteUs

def chartTtl : Int := 25 * 60 * minuteUs

def maxCacheSize : Nat := 100

def chartVersion : Nat := 18

section Metadata

variable (env : ChartEnv)

def normalizedUpdatedAt (sched : Sched) : Option (Option String) :=
  match sched.dtekUpdatedAt with
  | some text => env.normalizeDtekUpdatedAt (.str text)
  | none => some none

def normalizeScheduleChartMetadata (now : WallTime) (sched : Sched) : Option Sched :=
  match normalizedUpdatedAt env sched with
  | none => none
  | some (some text) => some { sched with dtekUpdatedAt := some text }
  | some none => some { sched with dtekUpdatedAt := some (env.kyivText now) }

def buildChartFingerprint (sched : Sched) : Option String :=
  match normalizedUpdatedAt env sched with
  | none => none
  | some text => some (env.sha256 ("v" ++ toString chartVersion ++ ":" ++ text.getD "unknown"))

end Metadata

def Sched.withSource (sched : Sched) (sourceUpdatedAt : Option String) : Sched :=
  match sourceUpdatedAt with
  | some text => { sched with dtekUpdatedAt := some text }
  | none => sched

def sourcePath (pair : Pair) : String := "data/" ++ pair.1 ++ ".json"

namespace Charts

variable (env : ChartEnv) (charts : Charts)

def start (now : WallTime) : Charts :=
  {
    now
    onDemand := false
    imageCache := []
    redis := TtlCache.Store.empty
    sourceUpdateCache := []
    tasks := fun _ => none
    current := fun _ => .unknown
    served := []
  }

def setTask (id : Nat) (task : Option ChartTask) : Charts :=
  { charts with tasks := Function.update charts.tasks id task }

def serve (due : Option (List ScheduleEvent)) (png : Png) : Charts :=
  { charts with served := (due, png) :: charts.served }

def l1Store (key : ChartKey) (now : WallTime) (data : Png) : Charts :=
  let front : TtlCache.Front ChartKey Png :=
    if charts.imageCache.length ≥ maxCacheSize then charts.imageCache.tail else charts.imageCache
  { charts with imageCache := front.put key now data }

def invalidateImageCache (pair : Pair) : Charts :=
  { charts with imageCache := charts.imageCache.erase { pair, fingerprint := none } }

def dueEvents (pair : Pair) (sched : Option Sched) : Option (List ScheduleEvent) :=
  match charts.current pair, sched with
  | .settled current, some sched => if sched.events = current.events then some sched.events else none
  | _, _ => none

inductive Plan where
  | raises
  | drawsOnDemand (sched : Sched) (due : Option (List ScheduleEvent))
  | looks (l : Lookup)
  deriving DecidableEq

def plan (pair : Pair) (sched : Option Sched) (sourceUpdatedAt : Option String)
    (due : Option (List ScheduleEvent)) : Plan :=
  match sched with
  | none => .looks { key := { pair, fingerprint := none }, sched := none, now := charts.now, due }
  | some sched =>
    match normalizeScheduleChartMetadata env charts.now (sched.withSource sourceUpdatedAt) with
    | none => .raises
    | some sched =>
      match buildChartFingerprint env sched with
      | none => .raises
      | some fingerprint =>
        if charts.onDemand then
          .drawsOnDemand sched due
        else
          .looks
            {
              key := { pair, fingerprint := some fingerprint }
              sched := some sched
              now := charts.now
              due
            }

def follow (id : Nat) (plan : Plan) : Charts :=
  match plan with
  | .raises => charts.setTask id none
  | .drawsOnDemand sched due => charts.setTask id (some (.drawingOnDemand sched due))
  | .looks l =>
    match charts.imageCache.fresh l.key cacheTtl charts.now with
    | some png =>
      let charts := { charts with imageCache := charts.imageCache.touch l.key }
      (charts.setTask id none).serve l.due png
    | none => charts.setTask id (some (.reading l))

def fetched (id : Nat) (pair : Pair) (sched : Option Sched) : Option Charts :=
  match charts.tasks id with
  | some _ => none
  | none =>
    let due := charts.dueEvents pair sched
    match sched with
    | none => some (charts.follow id (charts.plan env pair none none due))
    | some sched =>
      match charts.sourceUpdateCache.fresh (sourcePath pair) queueSourceUpdateTtl charts.now with
      | some sourceUpdatedAt =>
        let plan := charts.plan env pair (some sched) sourceUpdatedAt due
        let touched := charts.sourceUpdateCache.touch (sourcePath pair)
        some ({ charts with sourceUpdateCache := touched }.follow id plan)
      | none =>
        let cached := (charts.sourceUpdateCache.lookup (sourcePath pair)).bind (·.value)
        some (charts.setTask id (some (.askingSource pair sched cached due)))

def answeredSource (cached : Option String) (answer : SourceAnswer) : Option String :=
  match answer with
  | .notModified => cached
  | .failed => cached
  -- an exception of the normalization ends in the same handler
  | .commits date => (env.normalizeDtekUpdatedAt date).getD cached

def storeSource (pair : Pair) (cached : Option String) (answer : SourceAnswer) : Charts :=
  match answer with
  | .notModified =>
    let front := charts.sourceUpdateCache.put (sourcePath pair) charts.now cached
    { charts with sourceUpdateCache := front }
  | .failed => charts
  | .commits date =>
    match env.normalizeDtekUpdatedAt date with
    | none => charts
    | some normalized =>
      let front := charts.sourceUpdateCache.put (sourcePath pair) charts.now normalized
      { charts with sourceUpdateCache := if front.length > maxCacheSize then front.tail else front }

def sourceAnswered (id : Nat) (answer : SourceAnswer) : Option Charts :=
  match charts.tasks id with
  | some (.askingSource pair sched cached due) =>
    let plan := charts.plan env pair (some sched) (answeredSource env cached answer) due
    some ((charts.storeSource env pair cached answer).follow id plan)
  | _ => none

/--
`_check_single_queue` on a changed hash: `invalidate_image_cache`, then `_prerender_chart` up to its
first await.
-/
def changed (id : Nat) (pair : Pair) (sched : Sched) : Option Charts :=
  match charts.tasks id with
  | some _ => none
  | none =>
    let charts := charts.invalidateImageCache pair
    let metadata :=
      (normalizeScheduleChartMetadata env charts.now sched).bind fun normalized =>
        (buildChartFingerprint env normalized).map fun fingerprint => (normalized, fingerprint)
    match metadata with
    | some (normalized, fingerprint) =>
      let key := { pair, fingerprint := some fingerprint }
      let charts := charts.setTask id (some (.deleting { pair, sched, normalized, key }))
      some { charts with current := Function.update charts.current pair (.changing id) }
    -- `_prerender_chart` logs the exception and returns
    | none => some { charts with current := Function.update charts.current pair (.settled sched) }

def prerendered (id : Nat) (change : Change) : Charts :=
  let charts := charts.setTask id none
  if charts.current change.pair = .changing id then
    { charts with current := Function.update charts.current change.pair (.settled change.sched) }
  else
    charts

def redisDeleted (id : Nat) : Option Charts :=
  match charts.tasks id with
  | some (.deleting change) =>
    let charts := { charts with redis := charts.redis.delete change.key charts.now }
    some (charts.setTask id (some (.prerendering change)))
  | _ => none

def redisRead (id : Nat) : Option Charts :=
  match charts.tasks id with
  | some (.reading l) =>
    match charts.redis.get l.key charts.now, l.sched with
    | some png, _ => some (charts.setTask id (some (.hit l png)))
    | none, some _ => some (charts.setTask id (some (.drawing l)))
    | none, none => some (charts.setTask id (some (.downloading l)))
  | _ => none

def redisStored (id : Nat) : Option Charts :=
  match charts.tasks id with
  | some (.storing l png) =>
    let charts := { charts with redis := charts.redis.set l.key png charts.now chartTtl }
    some (charts.setTask id (some (.stored l png)))
  | some (.prestoring change png) =>
    let charts := { charts with redis := charts.redis.set change.key png charts.now chartTtl }
    some (charts.setTask id (some (.prestored change)))
  | _ => none

def drawn (id : Nat) (ok : Bool) : Option Charts :=
  match charts.tasks id with
  | some (.drawingOnDemand sched due) =>
    let charts := charts.setTask id none
    some (if ok then charts.serve due { drawnFrom := sched } else charts)
  | some (.drawing l) =>
    match l.sched, ok with
    | some sched, true => some (charts.setTask id (some (.storing l { drawnFrom := sched })))
    | _, _ => some (charts.setTask id (some (.downloading l)))
  | some (.prerendering change) =>
    if ok then
      some (charts.setTask id (some (.prestoring change { drawnFrom := change.normalized })))
    else
      some (charts.prerendered id change)
  | _ => none

def downloaded (id : Nat) (png : Option Png) : Option Charts :=
  match charts.tasks id with
  | some (.downloading l) =>
    match png with
    | some png => some (charts.setTask id (some (.storing l png)))
    | none => some (charts.setTask id none)
  | _ => none

def resumed (id : Nat) : Option Charts :=
  match charts.tasks id with
  | some (.hit l png) => some (((charts.l1Store l.key l.now png).setTask id none).serve l.due png)
  | some (.stored l png) => some (((charts.l1Store l.key l.now png).setTask id none).serve l.due png)
  | some (.prestored change) => some (charts.prerendered id change)
  | _ => none

def restarted : Charts :=
  { charts with imageCache := [], sourceUpdateCache := [], tasks := fun _ => none }

def step (charts : Charts) (e : ChartEvent) : Option Charts :=
  match e with
  | .elapsed us => some { charts with now := charts.now + us }
  | .renderModeSet onDemand => some { charts with onDemand }
  | .restarted => some charts.restarted
  | .changed id pair sched => charts.changed env id pair sched
  | .fetched id pair sched => charts.fetched env id pair sched
  | .sourceAnswered id answer => charts.sourceAnswered env id answer
  | .redisDeleted id => charts.redisDeleted id
  | .redisRead id => charts.redisRead id
  | .redisStored id => charts.redisStored id
  | .drawn id ok => charts.drawn id ok
  | .downloaded id png => charts.downloaded id png
  | .resumed id => charts.resumed id

/--
No call that had to show the current events of its pair has returned a PNG drawn from others.
-/
def ServesCurrent : Prop :=
  ∀ answer ∈ charts.served, ∀ events ∈ answer.1, answer.2.drawnFrom.events = events

instance : Decidable charts.ServesCurrent :=
  inferInstanceAs (Decidable (∀ answer ∈ charts.served, _))

end Charts

end Scheduler
